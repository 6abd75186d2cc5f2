import SpriteField.Proofs.Binary32.Whole
import SpriteField.Proofs.Rect
import SpriteField.Proofs.Grid.Span

/-!
# Overlapping rectangles share a chunk

Rectangles that overlap have a point in common, and the chunk of a point is a chunk of every rectangle
that the point lies in.  This survives the wrap of the grid.  It also survives the clamping of huge
coordinates: an interval that is clamped at its upper end alone is so long that its run covers the
whole axis.
-/

namespace SpriteField

namespace Binary32

/-- The unit that holds `x` starts before `y` ends, unless both are clamped. -/
theorem floor_le_of_lt_of_ceil {x y : Binary32} (h : x < y) :
    x.floor ≤ max (y.ceil - 1) (-2 ^ 63) ∨ x.floor = 2 ^ 63 - 1 ∧ y.ceil = 2 ^ 63 - 1 := by
  have hunits := div_lt_neg_neg_div (units_lt_of_lt h)
  rw [floor_eq h.1, ceil_eq h.2.1]
  generalize x.units / (unitsPerOne : Int) = m at hunits ⊢
  generalize -(-y.units / (unitsPerOne : Int)) = n at hunits ⊢
  unfold clampToWord
  omega

theorem floor_mono {x y : Binary32} (h : x ≤ y) : x.floor ≤ y.floor := by
  have hunits : x.units / (unitsPerOne : Int) ≤ y.units / (unitsPerOne : Int) :=
    Int.ediv_le_ediv (by decide) ((le_iff_units h.1 h.2.1).mp h)
  rw [floor_eq h.1, floor_eq h.2.1]
  generalize x.units / (unitsPerOne : Int) = m at hunits ⊢
  generalize y.units / (unitsPerOne : Int) = n at hunits ⊢
  unfold clampToWord
  omega

theorem floor_le_max (x : Binary32) : x.floor ≤ 2 ^ 63 - 1 := by
  unfold floor clampToWord
  split
  · decide
  · split <;> omega

theorem min_le_floor (x : Binary32) : -2 ^ 63 ≤ x.floor := by
  unfold floor clampToWord
  split
  · decide
  · split <;> omega

end Binary32

namespace Run

variable {g : Grid} {low high : Binary32}

theorem first_ofInterval : (ofInterval g low high).first = g.chunkOf low.floor := rfl

/-- The last chunk of an interval, before the run is cut off. -/
def lastChunk (g : Grid) (high : Binary32) : Int :=
  g.chunkOf (max (high.ceil - 1) (-2 ^ 63))

theorem count_ofInterval : (ofInterval g low high).count =
    min (max (lastChunk g high - g.chunkOf low.floor + 1) 1).toNat g.size := rfl

theorem count_ofInterval_pos (g : Grid) (low high : Binary32) :
    0 < (ofInterval g low high).count := by
  have hsize := g.size_pos
  rw [count_ofInterval]
  omega

theorem wrap_mem_places {run : Run} {n : Int} (h : (n - run.first) % g.size < run.count) :
    g.wrap n ∈ run.places g := by
  have hpos : (0 : Int) < g.size := by exact_mod_cast g.size_pos
  have hnonneg := Int.emod_nonneg (n - run.first) (Int.ne_of_gt hpos)
  refine mem_places.mpr ⟨((n - run.first) % g.size).toNat, by omega, ?_⟩
  rw [Grid.wrap_eq_wrap_iff, Int.toNat_of_nonneg hnonneg]
  have hdvd : (g.size : Int) ∣ (n - run.first) % g.size - (n - run.first) :=
    Int.dvd_sub_self_of_emod_eq rfl
  have heq : run.first + (n - run.first) % g.size - n =
      (n - run.first) % g.size - (n - run.first) := by ring
  rw [heq]
  exact hdvd

theorem wrap_mem_places_of_le {n : Int} (hfirst : g.chunkOf low.floor ≤ n)
    (hlast : n ≤ max (lastChunk g high) (g.chunkOf low.floor)) :
    g.wrap n ∈ (ofInterval g low high).places g := by
  have hpos : (0 : Int) < g.size := by exact_mod_cast g.size_pos
  apply wrap_mem_places
  rw [count_ofInterval, first_ofInterval]
  have hlt := Int.emod_lt_of_pos (n - g.chunkOf low.floor) hpos
  have hquotient := Int.ediv_nonneg (show 0 ≤ n - g.chunkOf low.floor by omega) (Int.le_of_lt hpos)
  have hle : (n - g.chunkOf low.floor) % g.size ≤ n - g.chunkOf low.floor := by
    rw [Int.emod_def]
    have hmul := Int.mul_nonneg (Int.le_of_lt hpos) hquotient
    omega
  omega

/-- A run that comes round to its start covers the whole axis. -/
theorem wrap_mem_places_of_full (n : Int)
    (hfull : (g.size : Int) ≤ lastChunk g high - g.chunkOf low.floor) :
    g.wrap n ∈ (ofInterval g low high).places g := by
  have hpos : (0 : Int) < g.size := by exact_mod_cast g.size_pos
  apply wrap_mem_places
  rw [count_ofInterval, first_ofInterval]
  have hlt := Int.emod_lt_of_pos (n - g.chunkOf low.floor) hpos
  omega

end Run

namespace Grid

theorem chunkOf_eq_div (g : Grid) (n : Int) : g.chunkOf n = n / (2 ^ g.chunkWidthBits : Nat) := by
  rw [chunkOf, Int.shiftRight_eq_div_pow]

theorem chunkOf_mono (g : Grid) {m n : Int} (h : m ≤ n) : g.chunkOf m ≤ g.chunkOf n := by
  rw [chunkOf_eq_div, chunkOf_eq_div]
  exact Int.ediv_le_ediv (by exact_mod_cast Nat.two_pow_pos _) h

theorem chunkOf_add_size_le {g : Grid} (hg : g.validate = .ok ()) {m n : Int}
    (h : m + 2 ^ 28 ≤ n) : g.chunkOf m + g.size ≤ g.chunkOf n := by
  obtain ⟨-, -, hwidth⟩ := (validate_eq_ok_iff g).mp hg
  have hsize := size_le hg
  have hedge : 2 ^ g.chunkWidthBits ≤ 2 ^ 16 := Nat.pow_le_pow_right (by decide) hwidth
  have hpos : 0 < 2 ^ g.chunkWidthBits := Nat.two_pow_pos _
  have hmul : g.size * 2 ^ g.chunkWidthBits ≤ 2 ^ 12 * 2 ^ 16 := Nat.mul_le_mul hsize hedge
  rw [chunkOf_eq_div, chunkOf_eq_div]
  set edge := 2 ^ g.chunkWidthBits
  apply Int.le_ediv_of_mul_le (by exact_mod_cast hpos)
  have hdiv : m / (edge : Int) * edge ≤ m := Int.ediv_mul_le m (by omega)
  have hcast : (g.size : Int) * edge ≤ 2 ^ 28 := by exact_mod_cast hmul
  rw [Int.add_mul]
  omega

end Grid

namespace Run

variable {g : Grid} {low high low' high' : Binary32}

/-- The chunk of a point of an interval is one of the interval's chunks. -/
theorem wrap_chunkOf_mem_places (hg : g.validate = .ok ()) {x : Binary32} (hlow : low ≤ x)
    (hhigh : x < high) : g.wrap (g.chunkOf x.floor) ∈ (ofInterval g low high).places g := by
  have hfirst := g.chunkOf_mono (Binary32.floor_mono hlow)
  rcases Binary32.floor_le_of_lt_of_ceil hhigh with hfloor | ⟨hfloor, hceil⟩
  · apply wrap_mem_places_of_le hfirst
    exact (g.chunkOf_mono hfloor).trans (Int.le_max_left _ _)
  · by_cases hclamped : low.floor = 2 ^ 63 - 1
    · apply wrap_mem_places_of_le hfirst
      rw [hfloor, hclamped]
      exact Int.le_max_right _ _
    · -- `high` is clamped and `low` is not, so the interval is far longer than the axis.
      have hmax := Binary32.floor_le_max low
      have hgap := Binary32.floor_le_of_lt hlow.1 (by omega)
      apply wrap_mem_places_of_full
      have hfull := Grid.chunkOf_add_size_le hg (m := low.floor)
        (n := max (high.ceil - 1) (-2 ^ 63)) (by omega)
      rw [lastChunk]
      omega

end Run

namespace Span

variable {g : Grid} {a b : Rect}

theorem isEmpty_ofRect : (ofRect g a).isEmpty = !a.hasArea := by
  cases harea : a.hasArea
  · simp [isEmpty, size, ofRect, harea]
  · have hcolumns := Run.count_ofInterval_pos g a.x1 a.x2
    have hrows := Run.count_ofInterval_pos g a.y1 a.y2
    have hpos := Nat.mul_pos hcolumns hrows
    rw [isEmpty, size, columns_ofRect harea, rows_ofRect harea]
    simp only [Bool.not_true, decide_eq_false_iff_not]
    omega

theorem chunkAt_mem_ids (hg : g.validate = .ok ()) {x y : Binary32} (h : a.HasPoint x y) :
    g.chunkAt x y ∈ (ofRect g a).ids := by
  have harea := h.hasArea
  have hcolumn := Run.wrap_chunkOf_mem_places hg h.left h.right
  have hrow := Run.wrap_chunkOf_mem_places hg h.top h.bottom
  rw [mem_ids, grid_ofRect, columns_ofRect harea, rows_ofRect harea]
  exact ⟨_, hrow, _, hcolumn, rfl⟩

theorem exists_common_id (hg : g.validate = .ok ()) (h : a.collides b = true) :
    ∃ id, id ∈ (ofRect g a).ids ∧ id ∈ (ofRect g b).ids := by
  obtain ⟨x, y, ha, hb⟩ := Rect.exists_common_point h
  exact ⟨g.chunkAt x y, chunkAt_mem_ids hg ha, chunkAt_mem_ids hg hb⟩

/-- Every point of a rectangle lies in one of the rectangle's chunks, and rectangles that overlap have
a chunk in common. -/
theorem overlap_shares {g : Grid} (hbits : 1 ≤ g.gridBits ∧ g.gridBits ≤ 12)
    (hwidth : g.chunkWidthBits ≤ 16) :
    (∀ a b : Rect, a.collides b = true → ∃ id, id ∈ (ofRect g a).ids ∧ id ∈ (ofRect g b).ids) ∧
    (∀ (bounds : Rect) (x y : Binary32), bounds.HasPoint x y →
      g.chunkAt x y ∈ (ofRect g bounds).ids) := by
  have hg : g.validate = .ok () := (Grid.validate_eq_ok_iff g).mpr ⟨hbits.1, hbits.2, hwidth⟩
  constructor
  · intro a b
    exact exists_common_id hg
  · intro bounds x y
    exact chunkAt_mem_ids hg

/-- Both ends of a rectangle beyond the last unit are clamped, which leaves it one chunk.  A rectangle
from before the first unit on has all of them. -/
theorem overlap_shares_clamped :
    let far : Rect := ⟨⟨0x5f000000⟩, .zero, ⟨0x5f800000⟩, .one⟩
    let wide : Rect := ⟨⟨0xdf800000⟩, .zero, ⟨0x5f800000⟩, .one⟩
    let g : Grid := ⟨0, 1⟩
    (1 ≤ g.gridBits ∧ g.gridBits ≤ 12) ∧ g.chunkWidthBits ≤ 16 ∧ far.collides wide = true ∧
      wide.HasPoint far.x1 far.y1 ∧ g.chunkAt far.x1 far.y1 ∈ (ofRect g wide).ids ∧
      (∃ id, id ∈ (ofRect g far).ids ∧ id ∈ (ofRect g wide).ids) ∧
      (ofRect g far).ids = [1] ∧ (ofRect g wide).ids = [0, 1] := by
  intro far wide g
  have hbits : 1 ≤ g.gridBits ∧ g.gridBits ≤ 12 := by decide
  have hwidth : g.chunkWidthBits ≤ 16 := by decide
  have hcollides : far.collides wide = true := by decide
  have hpoint : wide.HasPoint far.x1 far.y1 := by
    constructor <;> decide
  exact ⟨hbits, hwidth, hcollides, hpoint, (overlap_shares hbits hwidth).2 wide _ _ hpoint,
    (overlap_shares hbits hwidth).1 far wide hcollides, by decide, by decide⟩

end Span

end SpriteField
