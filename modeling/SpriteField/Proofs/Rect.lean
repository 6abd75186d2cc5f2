import SpriteField.Rect
import SpriteField.Proofs.Binary32.Order

/-!
# Rectangles by their points

A rectangle holds the points between its edges, its right and its lower edge not included.  Edges
that are not numbers, or that are out of order, have no point between them, so this gives malformed
rectangles their points as well: they have none.

Two rectangles collide exactly when they have a point in common.  Everything else about collisions
then follows from where points lie, without another look at the edges.
-/

namespace SpriteField
namespace Rect

/-- The point lies in the rectangle, the right and the lower edge of which do not belong to it. -/
structure HasPoint (r : Rect) (x y : Binary32) : Prop where
  left : r.x1 ≤ x
  right : x < r.x2
  top : r.y1 ≤ y
  bottom : y < r.y2

variable {r a b outer inner : Rect} {x y : Binary32}

theorem hasArea_iff : r.hasArea = true ↔ r.x1 < r.x2 ∧ r.y1 < r.y2 := by
  rw [hasArea, Bool.and_eq_true, decide_eq_true_eq, decide_eq_true_eq]

theorem hasPoint_corner (h : r.hasArea = true) : r.HasPoint r.x1 r.y1 := by
  obtain ⟨hx, hy⟩ := hasArea_iff.mp h
  constructor
  · exact Binary32.le_refl hx.1
  · exact hx
  · exact Binary32.le_refl hy.1
  · exact hy

theorem HasPoint.hasArea (h : r.HasPoint x y) : r.hasArea = true := by
  rw [hasArea_iff]
  exact ⟨Binary32.lt_of_le_of_lt h.left h.right, Binary32.lt_of_le_of_lt h.top h.bottom⟩

theorem hasArea_iff_exists_point : r.hasArea = true ↔ ∃ x y, r.HasPoint x y := by
  constructor
  · intro h
    exact ⟨r.x1, r.y1, hasPoint_corner h⟩
  · rintro ⟨x, y, h⟩
    exact h.hasArea

/-! ## Points in common -/

/-- Of two overlapping intervals, the one that starts later starts in the other. -/
theorem exists_common_coordinate {low high low' high' : Binary32} (h : low < high)
    (h' : low' < high') (hlt : low < high') (hlt' : low' < high) :
    ∃ x, (low ≤ x ∧ x < high) ∧ low' ≤ x ∧ x < high' := by
  rcases Binary32.le_or_lt h.1 h'.1 with hle | hgt
  · exact ⟨low', ⟨hle, hlt'⟩, Binary32.le_refl h'.1, h'⟩
  · exact ⟨low, ⟨Binary32.le_refl h.1, h⟩, Binary32.le_of_lt hgt, hlt⟩

theorem collides_iff : a.collides b = true ↔ a.hasArea = true ∧ b.hasArea = true ∧
    (a.x1 < b.x2 ∧ b.x1 < a.x2) ∧ a.y1 < b.y2 ∧ b.y1 < a.y2 := by
  simp only [collides, Bool.and_eq_true, decide_eq_true_eq, and_assoc]

theorem exists_common_point (h : a.collides b = true) :
    ∃ x y, a.HasPoint x y ∧ b.HasPoint x y := by
  obtain ⟨ha, hb, ⟨hx, hx'⟩, hy, hy'⟩ := collides_iff.mp h
  rw [hasArea_iff] at ha hb
  obtain ⟨x, hxa, hxb⟩ := exists_common_coordinate ha.1 hb.1 hx hx'
  obtain ⟨y, hya, hyb⟩ := exists_common_coordinate ha.2 hb.2 hy hy'
  exact ⟨x, y, ⟨hxa.1, hxa.2, hya.1, hya.2⟩, ⟨hxb.1, hxb.2, hyb.1, hyb.2⟩⟩

theorem HasPoint.collides (ha : a.HasPoint x y) (hb : b.HasPoint x y) :
    a.collides b = true := by
  rw [collides_iff]
  refine ⟨ha.hasArea, hb.hasArea, ⟨?_, ?_⟩, ?_, ?_⟩
  · exact Binary32.lt_of_le_of_lt ha.left hb.right
  · exact Binary32.lt_of_le_of_lt hb.left ha.right
  · exact Binary32.lt_of_le_of_lt ha.top hb.bottom
  · exact Binary32.lt_of_le_of_lt hb.top ha.bottom

theorem collides_iff_exists_point :
    a.collides b = true ↔ ∃ x y, a.HasPoint x y ∧ b.HasPoint x y := by
  constructor
  · exact exists_common_point
  · rintro ⟨x, y, ha, hb⟩
    exact ha.collides hb

/-! ## Collisions -/

theorem collides_comm (a b : Rect) : a.collides b = b.collides a := by
  rw [Bool.eq_iff_iff, collides_iff_exists_point, collides_iff_exists_point]
  simp only [and_comm]

theorem collides_self (r : Rect) : r.collides r = r.hasArea := by
  rw [Bool.eq_iff_iff, collides_iff_exists_point, hasArea_iff_exists_point]
  simp only [and_self]

theorem contains_iff : outer.contains inner = true ↔
    (outer.x1 ≤ inner.x1 ∧ outer.y1 ≤ inner.y1) ∧ inner.x2 ≤ outer.x2 ∧ inner.y2 ≤ outer.y2 := by
  simp only [contains, Bool.and_eq_true, decide_eq_true_eq, and_assoc]

theorem HasPoint.of_contains (h : outer.contains inner = true) (hpoint : inner.HasPoint x y) :
    outer.HasPoint x y := by
  obtain ⟨⟨hleft, htop⟩, hright, hbottom⟩ := contains_iff.mp h
  constructor
  · exact Binary32.le_trans hleft hpoint.left
  · exact Binary32.lt_of_lt_of_le hpoint.right hright
  · exact Binary32.le_trans htop hpoint.top
  · exact Binary32.lt_of_lt_of_le hpoint.bottom hbottom

theorem collides_of_contains {other : Rect} (h : outer.contains inner = true)
    (hcollides : inner.collides other = true) : outer.collides other = true := by
  obtain ⟨x, y, hinner, hother⟩ := exists_common_point hcollides
  exact (hinner.of_contains h).collides hother

/-- Comparing the edges of two rectangles tells whether they have a point in common, whatever words
the edges are. -/
theorem collides_pointwise :
    (∀ a b : Rect, a.collides b = true ↔ ∃ x y, a.HasPoint x y ∧ b.HasPoint x y) ∧
    (∀ a b : Rect, a.collides b = b.collides a) ∧
    (∀ r : Rect, r.collides r = true ↔ r.hasArea = true) ∧
    (∀ outer inner other : Rect, outer.contains inner = true → inner.collides other = true →
      outer.collides other = true) := by
  refine ⟨?_, collides_comm, ?_, ?_⟩
  · intro a b
    exact collides_iff_exists_point
  · intro r
    rw [collides_self]
  · intro outer inner other
    exact collides_of_contains

/-- The upper edges of the two nested rectangles are the two zeros, and their left edge is infinitely
far away.  A rectangle with an edge that is not a number holds no point, not even one of its own. -/
theorem collides_pointwise_unbounded :
    let outer : Rect := ⟨.infinity true, .zero, .infinity false, .infinity false⟩
    let inner : Rect := ⟨.infinity true, -.zero, .zero, .one⟩
    let other : Rect := ⟨-.one, .zero, .one, .one⟩
    let broken : Rect := ⟨.zero, .zero, .nan, .one⟩
    outer.contains inner = true ∧ inner.collides other = true ∧ outer.collides other = true ∧
      (∃ x y, outer.HasPoint x y ∧ other.HasPoint x y) ∧
      ¬∃ x y, broken.HasPoint x y ∧ broken.HasPoint x y := by
  intro outer inner other broken
  have hcontains : outer.contains inner = true := by decide
  have hinner : inner.collides other = true := by decide
  have houter : outer.collides other = true :=
    collides_pointwise.2.2.2 outer inner other hcontains hinner
  refine ⟨hcontains, hinner, houter, (collides_pointwise.1 outer other).mp houter, ?_⟩
  rw [← collides_pointwise.1 broken broken]
  decide

end Rect
end SpriteField
