import SpriteField.Binary32.Whole
import SpriteField.Proofs.Binary32.Order
import Mathlib.Data.Rat.Floor

/-!
# Whole numbers near a coordinate

Floor and ceiling divide the exact value by the number of units in one, downward and upward, and
then clamp the quotient to a signed 64-bit word.  Below `2 ^ 62` nothing is clamped, and they are
the floor and the ceiling of the rational number that the word stands for.
-/

namespace SpriteField
namespace Binary32

abbrev unitsPerOne : Nat := 2 ^ 149

theorem wholePart_eq (x : Binary32) :
    x.wholePart = magnitudeUnits x.magnitude / unitsPerOne := by
  rw [← significand_mul_scale, wholePart, unitExponent, Nat.shiftLeft_eq,
    Nat.shiftRight_eq_div_pow]
  split
  next hle =>
    have hsplit : 2 ^ x.scale = 2 ^ (x.scale - 149) * 2 ^ 149 := by
      rw [← pow_add]
      congr 1
      omega
    rw [hsplit, ← mul_assoc, Nat.mul_div_cancel _ (Nat.two_pow_pos 149)]
  next hlt =>
    have hsplit : unitsPerOne = 2 ^ (149 - x.scale) * 2 ^ x.scale := by
      rw [← pow_add, unitsPerOne]
      congr 1
      omega
    rw [hsplit, Nat.mul_div_mul_right _ _ (Nat.two_pow_pos x.scale)]

theorem hasFraction_eq (x : Binary32) :
    x.hasFraction = decide (magnitudeUnits x.magnitude % unitsPerOne ≠ 0) := by
  rw [← significand_mul_scale, hasFraction, unitExponent, Nat.one_shiftLeft]
  have hiff : x.significand % 2 ^ (149 - x.scale) = 0 ↔
      x.significand * 2 ^ x.scale % unitsPerOne = 0 := by
    by_cases hle : 149 ≤ x.scale
    · have hdvd : unitsPerOne ∣ 2 ^ x.scale := Nat.pow_dvd_pow 2 hle
      have hone : x.significand % 2 ^ (149 - x.scale) = 0 := by
        rw [Nat.sub_eq_zero_of_le hle, pow_zero, Nat.mod_one]
      simp only [hone, Nat.mod_eq_zero_of_dvd (hdvd.mul_left x.significand)]
    · have hsplit : unitsPerOne = 2 ^ (149 - x.scale) * 2 ^ x.scale := by
        rw [← pow_add, unitsPerOne]
        congr 1
        omega
      rw [hsplit, Nat.mul_mod_mul_right]
      have hpos : 0 < 2 ^ x.scale := Nat.two_pow_pos x.scale
      constructor
      · intro h
        rw [h, Nat.zero_mul]
      · intro h
        exact (Nat.mul_eq_zero.mp h).resolve_right (Nat.ne_of_gt hpos)
  rw [Bool.eq_iff_iff, bne_iff_ne, decide_eq_true_iff]
  exact not_congr hiff

theorem neg_div_unitsPerOne (n : Nat) :
    -(n : Int) / unitsPerOne =
      -((n / unitsPerOne + (decide (n % unitsPerOne ≠ 0)).toNat : Nat) : Int) := by
  unfold unitsPerOne
  by_cases h : n % 2 ^ 149 = 0
  · simp only [h, ne_eq, not_true_eq_false, decide_false, Bool.toNat_false]
    omega
  · simp only [ne_eq, h, not_false_eq_true, decide_true, Bool.toNat_true]
    omega

theorem floor_eq {x : Binary32} (hx : x.isNaN = false) :
    x.floor = clampToWord (x.units / unitsPerOne) := by
  rw [floor, hx, units_eq_magnitudeUnits, wholePart_eq, hasFraction_eq]
  cases x.negative
  · simp only [Bool.false_eq_true, if_false]
    congr 1
  · simp only [Bool.false_eq_true, if_false, if_true]
    rw [neg_div_unitsPerOne]

theorem ceil_eq {x : Binary32} (hx : x.isNaN = false) :
    x.ceil = clampToWord (-(-x.units / unitsPerOne)) := by
  rw [ceil, hx, units_eq_magnitudeUnits, wholePart_eq, hasFraction_eq]
  cases x.negative
  · simp only [Bool.false_eq_true, if_false]
    rw [neg_div_unitsPerOne, neg_neg]
  · simp only [Bool.false_eq_true, if_false, if_true, neg_neg]
    congr 1

/-- Between two numbers in strict order lies the lower end of a unit interval that starts at or
before the first one and ends at or before the ceiling of the second one. -/
theorem div_lt_neg_neg_div {a b : Int} (h : a < b) :
    a / unitsPerOne < -(-b / unitsPerOne) := by
  unfold unitsPerOne
  omega

/-- Below `2 ^ 63` the numbers are at least `2 ^ 39` apart. -/
theorem floor_le_of_lt {x : Binary32} (hx : x.isNaN = false) (h : x.floor < 2 ^ 63 - 1) :
    x.floor ≤ 2 ^ 63 - 2 ^ 39 := by
  have hbound : magnitudeUnits (188 * 2 ^ 23 + (2 ^ 24 - 1)) = (2 ^ 63 - 2 ^ 39) * unitsPerOne := by
    decide
  have hnext : magnitudeUnits (188 * 2 ^ 23 + (2 ^ 24 - 1) + 1) = 2 ^ 63 * unitsPerOne := by
    decide
  rw [floor_eq hx, units_eq_magnitudeUnits, clampToWord] at h ⊢
  unfold unitsPerOne at h hbound hnext ⊢
  by_cases hle : x.magnitude ≤ 188 * 2 ^ 23 + (2 ^ 24 - 1)
  · have hunits := strictMono_magnitudeUnits.monotone hle
    rw [hbound] at hunits
    split <;> omega
  · have hunits := strictMono_magnitudeUnits.monotone (Nat.lt_of_not_le hle)
    rw [hnext] at hunits
    cases hsign : x.negative
    · simp only [hsign, Bool.false_eq_true, if_false] at h ⊢
      omega
    · simp only [if_true]
      omega

/-! ## Rational values -/

/-- The number that a finite word stands for. -/
def value (x : Binary32) : ℚ :=
  x.units / unitsPerOne

theorem value_lt_value {x y : Binary32} (h : x < y) : x.value < y.value := by
  have hpos : (0 : ℚ) < unitsPerOne := by exact_mod_cast Nat.two_pow_pos 149
  exact div_lt_div_of_pos_right (by exact_mod_cast units_lt_of_lt h) hpos

theorem floor_value (x : Binary32) : ⌊x.value⌋ = x.units / unitsPerOne :=
  Rat.floor_intCast_div_natCast x.units unitsPerOne

theorem ceil_value (x : Binary32) : ⌈x.value⌉ = -(-x.units / unitsPerOne) :=
  Rat.ceil_intCast_div_natCast x.units unitsPerOne

theorem clampToWord_of_lt {n : Int} (hlow : -2 ^ 63 ≤ n) (hhigh : n < 2 ^ 63) :
    clampToWord n = n := by
  unfold clampToWord
  omega

theorem floor_eq_floor_value {x : Binary32} (hx : x.isNaN = false) (h : |x.value| < 2 ^ 62) :
    x.floor = ⌊x.value⌋ := by
  have hlow : -2 ^ 62 ≤ ⌊x.value⌋ := Int.le_floor.mpr (by push_cast; exact (abs_lt.mp h).1.le)
  have hhigh : ⌊x.value⌋ < 2 ^ 62 := Int.floor_lt.mpr (by push_cast; exact (abs_lt.mp h).2)
  rw [floor_eq hx, ← floor_value, clampToWord_of_lt (by omega) (by omega)]

theorem ceil_eq_ceil_value {x : Binary32} (hx : x.isNaN = false) (h : |x.value| < 2 ^ 62) :
    x.ceil = ⌈x.value⌉ := by
  have hlow : -2 ^ 62 < ⌈x.value⌉ := Int.lt_ceil.mpr (by push_cast; exact (abs_lt.mp h).1)
  have hhigh : ⌈x.value⌉ ≤ 2 ^ 62 := Int.ceil_le.mpr (by push_cast; exact (abs_lt.mp h).2.le)
  rw [ceil_eq hx, ← ceil_value, clampToWord_of_lt (by omega) (by omega)]

end Binary32
end SpriteField
