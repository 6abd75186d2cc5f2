import SpriteField.Proofs.Binary32.Quotient

/-!
# Rounded sums and products

A sum or a product is the exact result rounded once, and rounding keeps to the order of numbers.  A
rounded result is therefore never on the other side of a number than the exact one, though it may
come to be that number.  A product with a fraction below one stays below the other factor as long as
this factor has its twenty-four significant bits to lose.
-/

namespace SpriteField
namespace Binary32

/-! ## Sums -/

/-- Key of the number nearest to a number of units. -/
def nearestKey (units : Int) : Int :=
  if units < 0 then -(nearestMagnitude units.natAbs 1 : Int) else nearestMagnitude units.natAbs 1

theorem nearestKey_mono {m n : Int} (h : m ≤ n) : nearestKey m ≤ nearestKey n := by
  have hmono : ∀ {a b : Nat}, a ≤ b → nearestMagnitude a 1 ≤ nearestMagnitude b 1 :=
    fun hab => nearestMagnitude_mono Nat.one_pos hab
  unfold nearestKey
  split
  · split
    · have hle := hmono (show n.natAbs ≤ m.natAbs by omega)
      omega
    · omega
  · have hle := hmono (show m.natAbs ≤ n.natAbs by omega)
    rw [if_neg (by omega)]
    omega

theorem nearestKey_units {x : Binary32} (h : x.isNaN = false) : nearestKey x.units = x.key := by
  have hround := nearestMagnitude_magnitudeUnits (Nat.le_of_not_lt (of_decide_eq_false h))
  rw [nearestKey, key]
  rcases units_cases x with ⟨hsign, hunits⟩ | ⟨hsign, hunits⟩
  · rw [hsign, hunits, if_neg (by omega), Int.natAbs_natCast, hround]
    rfl
  · rw [hsign, hunits, Int.natAbs_neg, Int.natAbs_natCast, hround, if_pos rfl]
    split
    · rfl
    next hzero =>
      have hmagnitude : x.magnitude = 0 := strictMono_magnitudeUnits.injective (by
        rw [magnitudeUnits_zero]
        omega)
      omega

section Sum

variable {x y z : Binary32} (hx : x.isFinite = true) (hy : y.isFinite = true)
include hx hy

theorem isNaN_add : (x + y).isNaN = false := by
  have hle := nearestMagnitude_le (x.units + y.units).natAbs 1
  rw [add_eq hx hy, isNaN, magnitude_ofMagnitude (hle.trans_lt (by decide))]
  exact decide_eq_false (Nat.not_lt.mpr hle)

theorem key_add : (x + y).key = nearestKey (x.units + y.units) := by
  have hle := nearestMagnitude_le (x.units + y.units).natAbs 1
  have hlt := hle.trans_lt (show infinityMagnitude < 2 ^ 31 by decide)
  rw [add_eq hx hy, key, negative_ofMagnitude hlt, magnitude_ofMagnitude hlt, nearestKey,
    sumNegative]
  cases hzero : x.isZero && y.isZero
  · simp
  · obtain ⟨hxzero, hyzero⟩ := Bool.and_eq_true_iff.mp hzero
    rw [units_of_isZero hxzero, units_of_isZero hyzero]
    cases x.negative && y.negative <;> rfl

theorem le_add_of_units_le (hz : z.isNaN = false) (h : z.units ≤ x.units + y.units) :
    z ≤ x + y := by
  refine ⟨hz, isNaN_add hx hy, ?_⟩
  rw [key_add hx hy, ← nearestKey_units hz]
  exact nearestKey_mono h

theorem add_le_of_units_le (hz : z.isNaN = false) (h : x.units + y.units ≤ z.units) :
    x + y ≤ z := by
  refine ⟨isNaN_add hx hy, hz, ?_⟩
  rw [key_add hx hy, ← nearestKey_units hz]
  exact nearestKey_mono h

/-- A sum that comes to the number below `z` at most is rounded to less than `z`. -/
theorem add_lt_of_units_le (hz : z.isFinite = true) (hpos : 0 < z.units)
    (h : x.units + y.units ≤ magnitudeUnits (z.magnitude - 1)) : x + y < z := by
  have hfinite := magnitude_lt_of_isFinite hz
  have hunits : z.units = magnitudeUnits z.magnitude := by
    rcases units_cases z with ⟨-, h⟩ | ⟨-, h⟩ <;> omega
  have hmagnitude : 0 < z.magnitude := by
    apply strictMono_magnitudeUnits.lt_iff_lt.mp
    rw [magnitudeUnits_zero]
    omega
  have hlt : z.magnitude - 1 < infinityMagnitude := by omega
  have hbelow : (ofMagnitude false (z.magnitude - 1)).units = magnitudeUnits (z.magnitude - 1) := by
    rw [units_eq_magnitudeUnits, negative_ofMagnitude (hlt.trans (by decide)),
      magnitude_ofMagnitude (hlt.trans (by decide))]
    rfl
  have hnan := isNaN_ofMagnitude hlt.le
  have hle := add_le_of_units_le hx hy hnan (hbelow ▸ h)
  have hless := strictMono_magnitudeUnits (Nat.sub_lt hmagnitude Nat.one_pos)
  have hkey := (key_lt_key_iff (ofMagnitude false (z.magnitude - 1)) z).mpr (by omega)
  exact ⟨hle.1, isNaN_of_isFinite hz, hle.2.2.trans_lt hkey⟩

end Sum

/-! ## Products -/

/-- A product is the exact product rounded once. -/
theorem mul_eq {x y : Binary32} (hx : x.isFinite = true) (hy : y.isFinite = true) :
    x * y = ofMagnitude (x.negative != y.negative)
      (nearestMagnitude (magnitudeUnits x.magnitude * magnitudeUnits y.magnitude) (2 ^ 149)) := by
  have hexact : x.significand * y.significand * 2 ^ (x.scale + y.scale) =
      magnitudeUnits x.magnitude * magnitudeUnits y.magnitude := by
    rw [← significand_mul_scale, ← significand_mul_scale, pow_add]
    ring
  change mul x y = _
  rw [mul, isNaN_of_isFinite hx, isNaN_of_isFinite hy, isInfinite_of_isFinite hx,
    isInfinite_of_isFinite hy, nearestDyadic_eq_nearestMagnitude, hexact, unitExponent]
  simp only [Bool.or_self, Bool.false_eq_true, if_false]
  split
  next hzero =>
    have hproduct : magnitudeUnits x.magnitude * magnitudeUnits y.magnitude = 0 := by
      rcases Bool.or_eq_true_iff.mp hzero with h | h
      · rw [show x.magnitude = 0 from of_decide_eq_true h, magnitudeUnits_zero, zero_mul]
      · rw [show y.magnitude = 0 from of_decide_eq_true h, magnitudeUnits_zero, mul_zero]
    rw [hproduct]
    rfl
  next => rfl

section Fraction

variable {magnitude k : Nat}

theorem nearestMagnitude_mul_fraction_le (hmagnitude : magnitude ≤ infinityMagnitude)
    (hk : k ≤ 2 ^ 24) :
    nearestMagnitude (magnitudeUnits magnitude * k) (2 ^ 24) ≤ magnitude := by
  have hself := nearestMagnitude_mul_right (magnitudeUnits magnitude) 1 (Nat.two_pow_pos 24)
  rw [one_mul, nearestMagnitude_magnitudeUnits hmagnitude] at hself
  exact (nearestMagnitude_mono (Nat.two_pow_pos 24) (Nat.mul_le_mul_left _ hk)).trans hself.le

theorem roundQuotient_le_of_lt {num den quotient : Nat} (h : 2 * num < (2 * quotient + 1) * den) :
    roundQuotient num den ≤ quotient := by
  have hround := two_mul_roundQuotient_le num den
  have hlt : roundQuotient num den * den < (quotient + 1) * den := by
    rw [add_one_mul] at h ⊢
    rw [mul_assoc] at h
    omega
  exact Nat.lt_add_one_iff.mp (Nat.lt_of_mul_lt_mul_right hlt)

/-- A fraction below one takes at least one step off a number above the least exponent. -/
theorem nearestMagnitude_mul_fraction_lt (hmagnitude : 2 ^ 23 < magnitude) (hk : k < 2 ^ 24) :
    nearestMagnitude (magnitudeUnits magnitude * k) (2 ^ 24) < magnitude := by
  -- The significand is taken to be above `2 ^ 23`, so that a power of two has `2 ^ 24`.
  obtain ⟨exponent, significand, rfl, hlow, hhigh⟩ : ∃ exponent significand,
      magnitude = exponent * 2 ^ 23 + significand ∧ 2 ^ 23 < significand ∧
        significand ≤ 2 ^ 24 :=
    ⟨(magnitude - 1) / 2 ^ 23 - 1, magnitude - ((magnitude - 1) / 2 ^ 23 - 1) * 2 ^ 23, by omega⟩
  rw [magnitudeUnits_pack hhigh fun _ => hlow.le]
  rw [mul_right_comm]
  set num := significand * k * 2 ^ exponent
  have hexponent : exponentOf (num / 2 ^ 24) ≤ exponent := by
    apply exponentOf_le
    rw [Nat.div_lt_iff_lt_mul (Nat.two_pow_pos 24), pow_add, mul_right_comm]
    exact Nat.mul_lt_mul_of_pos_right
      (Nat.mul_lt_mul_of_le_of_lt hhigh hk (Nat.two_pow_pos 24)) (Nat.two_pow_pos exponent)
  rw [nearestMagnitude_eq]
  refine (Nat.min_le_left _ _).trans_lt ?_
  rcases hexponent.eq_or_lt with heq | hlt
  · have hround : roundQuotient num (2 ^ 24 * 2 ^ exponent) ≤ significand - 1 := by
      apply roundQuotient_le_of_lt
      rw [← mul_assoc 2, ← mul_assoc (2 * (significand - 1) + 1)]
      refine Nat.mul_lt_mul_of_pos_right ?_ (Nat.two_pow_pos exponent)
      have hproduct := Nat.mul_le_mul_left significand (Nat.le_sub_one_of_lt hk)
      omega
    rw [heq]
    omega
  · have hround := significand_le (Nat.two_pow_pos 24) num
    omega

end Fraction

end Binary32
end SpriteField
