import SpriteField.Atlas.Packing
import SpriteField.Proofs.Binary32.Exact
import SpriteField.Proofs.Rect

/-!
# Boxes

The rectangles of an atlas have whole corners that are no larger than `2 ^ 24`.  Such a rectangle is
a box of unit cells, and cutting a corner off it is exact.
-/

namespace SpriteField

/-- The unit cell in column `i` and row `j` lies in the rectangle. -/
def Rect.hasCell (r : Rect) (i j : Int) : Bool :=
  r.x1.units ≤ i * Binary32.unitsPerOne && (i + 1) * Binary32.unitsPerOne ≤ r.x2.units &&
    (r.y1.units ≤ j * Binary32.unitsPerOne && (j + 1) * Binary32.unitsPerOne ≤ r.y2.units)

/-- The corners of a rectangle with whole coordinates. -/
structure Box where
  x1 : Nat
  y1 : Nat
  x2 : Nat
  y2 : Nat

namespace Box

def rect (b : Box) : Rect :=
  ⟨.ofNat b.x1, .ofNat b.y1, .ofNat b.x2, .ofNat b.y2⟩

/-- The box has ordered corners and lies in an image of the given size. -/
structure Within (b : Box) (width height : Nat) : Prop where
  left_le : b.x1 ≤ b.x2
  right_le : b.x2 ≤ width
  top_le : b.y1 ≤ b.y2
  bottom_le : b.y2 ≤ height

theorem Within.mono {b : Box} {width height width' height' : Nat} (h : b.Within width height)
    (hwidth : width ≤ width') (hheight : height ≤ height') : b.Within width' height' := by
  constructor
  · exact h.left_le
  · exact h.right_le.trans hwidth
  · exact h.top_le
  · exact h.bottom_le.trans hheight

variable {b b' : Box} {i j : Int}

theorem units_le_iff {n : Nat} (hn : n ≤ 2 ^ 24) :
    (Binary32.ofNat n).units ≤ i * Binary32.unitsPerOne ↔ (n : Int) ≤ i := by
  rw [Binary32.units_ofNat hn]
  exact mul_le_mul_iff_left₀ (by decide)

theorem le_units_iff {n : Nat} (hn : n ≤ 2 ^ 24) :
    (i + 1) * Binary32.unitsPerOne ≤ (Binary32.ofNat n).units ↔ i < n := by
  rw [Binary32.units_ofNat hn, ← Int.add_one_le_iff]
  exact mul_le_mul_iff_left₀ (by decide)

section Within

variable (h : b.Within (2 ^ 24) (2 ^ 24))
include h

theorem x1_le : b.x1 ≤ 2 ^ 24 := h.left_le.trans h.right_le

theorem y1_le : b.y1 ≤ 2 ^ 24 := h.top_le.trans h.bottom_le

theorem hasCell_rect : b.rect.hasCell i j = true ↔
    (b.x1 : Int) ≤ i ∧ i < b.x2 ∧ (b.y1 : Int) ≤ j ∧ j < b.y2 := by
  simp only [Rect.hasCell, rect, Bool.and_eq_true, decide_eq_true_eq, units_le_iff (x1_le h),
    units_le_iff (y1_le h), le_units_iff h.right_le, le_units_iff h.bottom_le, and_assoc]

theorem hasArea_rect : b.rect.hasArea = true ↔ b.x1 < b.x2 ∧ b.y1 < b.y2 := by
  simp only [Rect.hasArea_iff, rect, Binary32.ofNat_lt_ofNat (x1_le h) h.right_le,
    Binary32.ofNat_lt_ofNat (y1_le h) h.bottom_le]

theorem hasCell_of_not_hasArea (harea : b.rect.hasArea = false) (i j : Int) :
    b.rect.hasCell i j = false := by
  rw [Bool.eq_false_iff]
  intro hcell
  have hempty : ¬(b.x1 < b.x2 ∧ b.y1 < b.y2) := by
    rw [← hasArea_rect h, harea]
    decide
  have hin := (hasCell_rect h).mp hcell
  omega

theorem width_rect : b.rect.width = .ofNat (b.x2 - b.x1) :=
  Binary32.ofNat_sub_ofNat h.right_le h.left_le

theorem height_rect : b.rect.height = .ofNat (b.y2 - b.y1) :=
  Binary32.ofNat_sub_ofNat h.bottom_le h.top_le

theorem collides_rect (h' : b'.Within (2 ^ 24) (2 ^ 24))
    (hcollides : b.rect.collides b'.rect = true) :
    ∃ i j : Int, b.rect.hasCell i j = true ∧ b'.rect.hasCell i j = true := by
  rw [Rect.collides_iff, hasArea_rect h, hasArea_rect h'] at hcollides
  simp only [rect, Binary32.ofNat_lt_ofNat (x1_le h) h'.right_le,
    Binary32.ofNat_lt_ofNat (x1_le h') h.right_le, Binary32.ofNat_lt_ofNat (y1_le h) h'.bottom_le,
    Binary32.ofNat_lt_ofNat (y1_le h') h.bottom_le] at hcollides
  refine ⟨(max b.x1 b'.x1 : Nat), (max b.y1 b'.y1 : Nat), ?_, ?_⟩
  · rw [hasCell_rect h]
    omega
  · rw [hasCell_rect h']
    omega

theorem contains_rect {width height : Nat} (hwidth : width ≤ 2 ^ 24) (hheight : height ≤ 2 ^ 24)
    (hin : b.Within width height) :
    (Rect.mk .zero .zero (.ofNat width) (.ofNat height)).contains b.rect = true := by
  simp only [Rect.contains_iff, rect, Binary32.zero_eq_ofNat,
    Binary32.ofNat_le_ofNat (Nat.zero_le _) (x1_le h),
    Binary32.ofNat_le_ofNat (Nat.zero_le _) (y1_le h),
    Binary32.ofNat_le_ofNat h.right_le hwidth, Binary32.ofNat_le_ofNat h.bottom_le hheight]
  exact ⟨⟨Nat.zero_le _, Nat.zero_le _⟩, hin.right_le, hin.bottom_le⟩

end Within

/-! ## Cutting -/

section Cut

variable {width height : Nat}

theorem fits_rect (h : b.Within (2 ^ 24) (2 ^ 24)) (hwidth : width ≤ 2 ^ 24)
    (hheight : height ≤ 2 ^ 24) : Atlas.fits width height b.rect = true ↔
      b.x1 + width ≤ b.x2 ∧ b.y1 + height ≤ b.y2 := by
  have hleft := h.left_le
  have hright := h.right_le
  have htop := h.top_le
  have hbottom := h.bottom_le
  rw [Atlas.fits, width_rect h, height_rect h, Bool.and_eq_true, decide_eq_true_eq,
    decide_eq_true_eq, Binary32.ofNat_le_ofNat hwidth (by omega),
    Binary32.ofNat_le_ofNat hheight (by omega)]
  omega

def taken (b : Box) (width height : Nat) : Box :=
  ⟨b.x1, b.y1, b.x1 + width, b.y1 + height⟩

def strip (b : Box) (width height : Nat) : Box :=
  ⟨b.x1 + width, b.y1, b.x2, b.y1 + height⟩

def remainder (b : Box) (height : Nat) : Box :=
  ⟨b.x1, b.y1 + height, b.x2, b.y2⟩

variable (hright : b.x1 + width ≤ b.x2) (hbottom : b.y1 + height ≤ b.y2)

section Parts

variable {imageWidth imageHeight : Nat} (h : b.Within imageWidth imageHeight)
include h hright hbottom

theorem within_taken : (b.taken width height).Within imageWidth imageHeight where
  left_le := Nat.le_add_right _ _
  right_le := hright.trans h.right_le
  top_le := Nat.le_add_right _ _
  bottom_le := hbottom.trans h.bottom_le

theorem within_strip : (b.strip width height).Within imageWidth imageHeight where
  left_le := hright
  right_le := h.right_le
  top_le := Nat.le_add_right _ _
  bottom_le := hbottom.trans h.bottom_le

omit hright in
theorem within_remainder : (b.remainder height).Within imageWidth imageHeight where
  left_le := h.left_le
  right_le := h.right_le
  top_le := hbottom
  bottom_le := h.bottom_le

end Parts

variable (h : b.Within (2 ^ 24) (2 ^ 24))
include hright hbottom h

theorem taken_rect : Atlas.taken width height b.rect = (b.taken width height).rect := by
  simp only [Atlas.taken, rect, taken, Binary32.ofNat_add_ofNat (hright.trans h.right_le),
    Binary32.ofNat_add_ofNat (hbottom.trans h.bottom_le)]

theorem strip_rect : Atlas.strip width height b.rect = (b.strip width height).rect := by
  simp only [Atlas.strip, rect, strip, Binary32.ofNat_add_ofNat (hright.trans h.right_le),
    Binary32.ofNat_add_ofNat (hbottom.trans h.bottom_le)]

omit hright in
theorem remainder_rect : Atlas.remainder height b.rect = (b.remainder height).rect := by
  simp only [Atlas.remainder, rect, remainder,
    Binary32.ofNat_add_ofNat (hbottom.trans h.bottom_le)]

/-- Cutting loses no cell and doubles none. -/
theorem hasCell_cut (i j : Int) :
    ((b.taken width height).rect.hasCell i j).toNat +
      ((b.strip width height).rect.hasCell i j).toNat +
      ((b.remainder height).rect.hasCell i j).toNat = (b.rect.hasCell i j).toNat := by
  have hcount : ∀ {b : Box}, b.Within (2 ^ 24) (2 ^ 24) → (b.rect.hasCell i j).toNat =
      if (b.x1 : Int) ≤ i ∧ i < b.x2 ∧ (b.y1 : Int) ≤ j ∧ j < b.y2 then 1 else 0 := by
    intro b h
    split
    next hin => rw [(hasCell_rect h).mpr hin, Bool.toNat_true]
    next hout =>
      rw [Bool.eq_false_iff.mpr fun hcell => hout ((hasCell_rect h).mp hcell), Bool.toNat_false]
  rw [hcount (within_taken hright hbottom h), hcount (within_strip hright hbottom h),
    hcount (within_remainder hbottom h), hcount h]
  simp only [taken, strip, remainder, Nat.cast_add]
  split_ifs <;> omega

end Cut

end Box
end SpriteField
