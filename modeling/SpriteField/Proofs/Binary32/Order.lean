import SpriteField.Binary32.Basic
import Mathlib.Tactic

/-!
# Order of binary32 numbers

A magnitude stands for a whole number of units, and larger magnitudes stand for more of them.
Comparing two words that are numbers is therefore the same as comparing their exact values, and
statements about coordinates become statements about integers.
-/

namespace SpriteField
namespace Binary32

/-- The number of units that a magnitude stands for. -/
def magnitudeUnits (magnitude : Nat) : Nat :=
  (if magnitude < 2 ^ 23 then magnitude else 2 ^ 23 + magnitude % 2 ^ 23) *
    2 ^ (magnitude / 2 ^ 23 - 1)

theorem significand_mul_scale (x : Binary32) :
    x.significand * 2 ^ x.scale = magnitudeUnits x.magnitude := rfl

theorem units_eq_magnitudeUnits (x : Binary32) :
    x.units =
      if x.negative then -(magnitudeUnits x.magnitude : Int)
      else magnitudeUnits x.magnitude := by
  rw [units, Nat.shiftLeft_eq, significand_mul_scale]

theorem magnitudeUnits_of_lt {magnitude : Nat} (h : magnitude < 2 ^ 23) :
    magnitudeUnits magnitude = magnitude := by
  have hdiv : magnitude / 2 ^ 23 = 0 := Nat.div_eq_of_lt h
  rw [magnitudeUnits, if_pos h, hdiv, Nat.zero_sub, pow_zero, mul_one]

/-- The exponent field is one more than the scale. -/
theorem magnitudeUnits_normal {scale fraction : Nat} (h : fraction < 2 ^ 23) :
    magnitudeUnits ((scale + 1) * 2 ^ 23 + fraction) = (2 ^ 23 + fraction) * 2 ^ scale := by
  have hdiv : ((scale + 1) * 2 ^ 23 + fraction) / 2 ^ 23 = scale + 1 := by omega
  have hmod : ((scale + 1) * 2 ^ 23 + fraction) % 2 ^ 23 = fraction := by omega
  have hlarge : ¬(scale + 1) * 2 ^ 23 + fraction < 2 ^ 23 := by omega
  rw [magnitudeUnits, if_neg hlarge, hdiv, hmod, Nat.add_sub_cancel]

/-- Every magnitude is either below the first exponent or has the form of the lemma above. -/
theorem magnitude_cases (magnitude : Nat) :
    magnitude < 2 ^ 23 ∨
      ∃ scale fraction, fraction < 2 ^ 23 ∧ magnitude = (scale + 1) * 2 ^ 23 + fraction := by
  by_cases h : magnitude < 2 ^ 23
  · exact Or.inl h
  · refine Or.inr ⟨magnitude / 2 ^ 23 - 1, magnitude % 2 ^ 23, Nat.mod_lt _ (by decide), ?_⟩
    omega

/-- Neighbouring magnitudes are a power of two apart. -/
theorem magnitudeUnits_succ (magnitude : Nat) :
    magnitudeUnits (magnitude + 1) = magnitudeUnits magnitude + 2 ^ (magnitude / 2 ^ 23 - 1) := by
  rcases magnitude_cases magnitude with hsmall | ⟨scale, fraction, hfraction, rfl⟩
  · rw [magnitudeUnits_of_lt hsmall, Nat.div_eq_of_lt hsmall, Nat.zero_sub, pow_zero]
    by_cases hnext : magnitude + 1 < 2 ^ 23
    · rw [magnitudeUnits_of_lt hnext]
    · have heq : magnitude + 1 = (0 + 1) * 2 ^ 23 + 0 := by omega
      rw [heq, magnitudeUnits_normal (by decide)]
      omega
  · have hscale : ((scale + 1) * 2 ^ 23 + fraction) / 2 ^ 23 - 1 = scale := by omega
    rw [magnitudeUnits_normal hfraction, hscale]
    by_cases hnext : fraction + 1 < 2 ^ 23
    · rw [add_assoc, magnitudeUnits_normal hnext]
      ring
    · have heq : (scale + 1) * 2 ^ 23 + fraction + 1 = (scale + 1 + 1) * 2 ^ 23 + 0 := by omega
      rw [heq, magnitudeUnits_normal (by decide), show fraction = 2 ^ 23 - 1 by omega, pow_succ]
      ring

/-- Larger magnitudes are not closer together. -/
theorem magnitudeUnits_gap_mono {m n : Nat} (h : m ≤ n) :
    magnitudeUnits (m + 1) + magnitudeUnits n ≤ magnitudeUnits m + magnitudeUnits (n + 1) := by
  have hscale : m / 2 ^ 23 - 1 ≤ n / 2 ^ 23 - 1 :=
    Nat.sub_le_sub_right (Nat.div_le_div_right h) 1
  have hgap := Nat.pow_le_pow_right (show 0 < 2 by decide) hscale
  rw [magnitudeUnits_succ, magnitudeUnits_succ]
  omega

theorem magnitudeUnits_lt_succ (magnitude : Nat) :
    magnitudeUnits magnitude < magnitudeUnits (magnitude + 1) := by
  rw [magnitudeUnits_succ]
  exact Nat.lt_add_of_pos_right (Nat.two_pow_pos _)

theorem strictMono_magnitudeUnits : StrictMono magnitudeUnits :=
  strictMono_nat_of_lt_succ magnitudeUnits_lt_succ

@[simp] theorem magnitudeUnits_zero : magnitudeUnits 0 = 0 := rfl

theorem magnitudeUnits_pos {magnitude : Nat} (h : 0 < magnitude) :
    0 < magnitudeUnits magnitude :=
  strictMono_magnitudeUnits h

/-! ## Comparisons -/

theorem key_lt_key_iff (x y : Binary32) : x.key < y.key ↔ x.units < y.units := by
  have hlt := strictMono_magnitudeUnits.lt_iff_lt (a := x.magnitude) (b := y.magnitude)
  have hgt := strictMono_magnitudeUnits.lt_iff_lt (a := y.magnitude) (b := x.magnitude)
  have hx := strictMono_magnitudeUnits.lt_iff_lt (a := 0) (b := x.magnitude)
  have hy := strictMono_magnitudeUnits.lt_iff_lt (a := 0) (b := y.magnitude)
  rw [magnitudeUnits_zero] at hx hy
  rw [units_eq_magnitudeUnits, units_eq_magnitudeUnits, key, key]
  split <;> split <;> omega

theorem key_le_key_iff (x y : Binary32) : x.key ≤ y.key ↔ x.units ≤ y.units := by
  have h := key_lt_key_iff y x
  omega

theorem lt_iff_units {x y : Binary32} (hx : x.isNaN = false) (hy : y.isNaN = false) :
    x < y ↔ x.units < y.units := by
  change (x.isNaN = false ∧ y.isNaN = false ∧ x.key < y.key) ↔ _
  simp only [hx, hy, key_lt_key_iff, true_and]

theorem le_iff_units {x y : Binary32} (hx : x.isNaN = false) (hy : y.isNaN = false) :
    x ≤ y ↔ x.units ≤ y.units := by
  change (x.isNaN = false ∧ y.isNaN = false ∧ x.key ≤ y.key) ↔ _
  simp only [hx, hy, key_le_key_iff, true_and]

theorem units_lt_of_lt {x y : Binary32} (h : x < y) : x.units < y.units :=
  (lt_iff_units h.1 h.2.1).mp h

protected theorem le_refl {x : Binary32} (h : x.isNaN = false) : x ≤ x :=
  ⟨h, h, le_rfl⟩

protected theorem le_of_lt {x y : Binary32} (h : x < y) : x ≤ y :=
  ⟨h.1, h.2.1, h.2.2.le⟩

protected theorem le_trans {x y z : Binary32} (h : x ≤ y) (h' : y ≤ z) : x ≤ z :=
  ⟨h.1, h'.2.1, h.2.2.trans h'.2.2⟩

protected theorem lt_of_le_of_lt {x y z : Binary32} (h : x ≤ y) (h' : y < z) : x < z :=
  ⟨h.1, h'.2.1, h.2.2.trans_lt h'.2.2⟩

protected theorem lt_of_lt_of_le {x y z : Binary32} (h : x < y) (h' : y ≤ z) : x < z :=
  ⟨h.1, h'.2.1, h.2.2.trans_le h'.2.2⟩

protected theorem le_or_lt {x y : Binary32} (hx : x.isNaN = false) (hy : y.isNaN = false) :
    x ≤ y ∨ y < x :=
  (le_or_gt x.key y.key).imp (⟨hx, hy, ·⟩) (⟨hy, hx, ·⟩)

theorem isNaN_of_isFinite {x : Binary32} (h : x.isFinite = true) : x.isNaN = false := by
  simp only [isFinite, decide_eq_true_eq] at h
  simp only [isNaN, decide_eq_false_iff_not]
  omega

end Binary32
end SpriteField
