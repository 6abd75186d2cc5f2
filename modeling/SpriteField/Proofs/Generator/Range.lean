import SpriteField.Generator
import SpriteField.Proofs.Binary32.Rounded

/-!
# Draws from an interval

A draw from an interval adds a fraction of its width to its lower end.  The fraction is below one,
but width, product and sum are rounded.  Rounding keeps the result within the interval, and it may
take it to the upper end: the interval from one to the next number has no other number to give.
-/

namespace SpriteField
namespace Generator

open Binary32

/-! ## The fraction -/

/-- A fraction is a number of parts of `2 ^ -24`, each of them `2 ^ 125` units. -/
theorem exists_unitFraction (word : UInt32) :
    ∃ k < 2 ^ 24, (unitFraction word).isFinite = true ∧ (unitFraction word).negative = false ∧
      magnitudeUnits (unitFraction word).magnitude = k * 2 ^ 125 := by
  have hk : (word >>> 8).toNat < 2 ^ 24 := by
    have hshift : (word >>> 8).toNat = word.toNat >>> 8 := UInt32.toNat_shiftRight word 8
    have hlt := word.toNat_lt
    rw [hshift, Nat.shiftRight_eq_div_pow]
    omega
  have hunits := magnitudeUnits_nearestMagnitude_texel hk.le
  have hlt : nearestMagnitude ((word >>> 8).toNat * 2 ^ 149) (2 ^ 24) < infinityMagnitude := by
    have hinfinity : magnitudeUnits infinityMagnitude = 2 ^ 152 * 2 ^ 125 := by decide
    apply strictMono_magnitudeUnits.lt_iff_lt.mp
    rw [hunits, hinfinity]
    exact Nat.mul_lt_mul_of_pos_right (hk.trans (by decide)) (Nat.two_pow_pos 125)
  have hfraction : unitFraction word =
      ofMagnitude false (nearestMagnitude ((word >>> 8).toNat * 2 ^ 149) (2 ^ 24)) := by
    rw [unitFraction, ofFraction, nearestDyadic_eq_nearestMagnitude, unitExponent]
  refine ⟨_, hk, ?_⟩
  rw [hfraction, magnitude_ofMagnitude (hlt.trans (by decide))]
  exact ⟨isFinite_ofMagnitude hlt, negative_ofMagnitude (hlt.trans (by decide)), hunits⟩

/-! ## The step from the lower end -/

section Step

variable {width : Binary32} (hwidth : width.isFinite = true) (hsign : width.negative = false)
include hwidth hsign

/-- A fraction of a width is no more than the width, and less than that above the least exponent. -/
theorem mul_unitFraction (word : UInt32) :
    (width * unitFraction word).isFinite = true ∧
      (width * unitFraction word).negative = false ∧
      (width * unitFraction word).magnitude ≤ width.magnitude ∧
      (2 ^ 23 < width.magnitude → (width * unitFraction word).magnitude < width.magnitude) := by
  obtain ⟨k, hk, hfinite, hpositive, hunits⟩ := exists_unitFraction word
  have hinfinity := magnitude_lt_of_isFinite hwidth
  have hround : nearestMagnitude (magnitudeUnits width.magnitude * (k * 2 ^ 125)) (2 ^ 149) =
      nearestMagnitude (magnitudeUnits width.magnitude * k) (2 ^ 24) := by
    rw [← mul_assoc, show 2 ^ 149 = 2 ^ 24 * 2 ^ 125 by rfl,
      nearestMagnitude_mul_right _ _ (Nat.two_pow_pos 125)]
  have hle := nearestMagnitude_mul_fraction_le hinfinity.le hk.le
  have hlt := hle.trans_lt hinfinity
  rw [mul_eq hwidth hfinite, hunits, hround, hsign, hpositive,
    magnitude_ofMagnitude (hlt.trans (by decide))]
  exact ⟨isFinite_ofMagnitude hlt, negative_ofMagnitude (hlt.trans (by decide)), hle,
    fun hlarge => nearestMagnitude_mul_fraction_lt hlarge hk⟩

end Step

/-- What has been rounded up to a width is not reached by less than this width. -/
theorem magnitudeUnits_le_of_step {units magnitude : Nat}
    (hle : magnitude ≤ nearestMagnitude units 1)
    (hlt : 2 ^ 23 < nearestMagnitude units 1 → magnitude < nearestMagnitude units 1) :
    magnitudeUnits magnitude ≤ units := by
  by_contra hunits
  have hself := nearestMagnitude_magnitudeUnits (hle.trans (nearestMagnitude_le units 1))
  have hmono := nearestMagnitude_mono Nat.one_pos (Nat.le_of_not_le hunits)
  rw [hself] at hmono
  -- So the width was rounded up to `magnitude`, but below `2 ^ 23` units nothing is rounded.
  have hsmall : magnitude ≤ 2 ^ 23 := by
    by_contra hlarge
    have h := hlt (by omega)
    omega
  have hbound : magnitudeUnits magnitude ≤ 2 ^ 23 :=
    strictMono_magnitudeUnits.monotone hsmall
  obtain ⟨exact, hexact⟩ := exists_magnitudeUnits_eq (show units ≤ 2 ^ 24 by omega) 0
  rw [pow_zero, mul_one] at hexact
  have hbelow : exact < magnitude := by
    apply strictMono_magnitudeUnits.lt_iff_lt.mp
    omega
  have hround := nearestMagnitude_magnitudeUnits
    (hbelow.le.trans (hle.trans (nearestMagnitude_le units 1)))
  rw [hexact] at hround
  omega

/-! ## The draw -/

section Draw

variable {low high : Binary32} (hlow : low.isFinite = true) (hhigh : high.isFinite = true)
  (hlt : low < high)
include hlow hhigh hlt

theorem width_eq : high - low =
    ofMagnitude false (nearestMagnitude (high.units - low.units).natAbs 1) := by
  have hunits := units_lt_of_lt hlt
  have hsign : sumNegative high (-low) = false := by
    rw [sumNegative, units_neg]
    split
    next hzero =>
      obtain ⟨hhighZero, hlowZero⟩ := Bool.and_eq_true_iff.mp hzero
      have hneg := units_of_isZero hlowZero
      rw [units_neg] at hneg
      rw [units_of_isZero hhighZero] at hunits
      omega
    next => exact decide_eq_false (by omega)
  change high + -low = _
  rw [add_eq hhigh (by rw [isFinite_neg, hlow]), hsign, units_neg, Int.sub_eq_add_neg]

/-- The step from the lower end, in units, whatever the draw. -/
theorem exists_step (hwidth : (high - low).isFinite = true) (word : UInt32) :
    ∃ step : Nat, ((high - low) * unitFraction word).isFinite = true ∧
      ((high - low) * unitFraction word).units = step ∧ low.units + step ≤ high.units ∧
      (2 ^ 23 < (high - low).magnitude →
        step ≤ magnitudeUnits ((high - low).magnitude - 1)) := by
  have hunits := units_lt_of_lt hlt
  have hle := nearestMagnitude_le (high.units - low.units).natAbs 1
  have heq := width_eq hlow hhigh hlt
  have hsign : (high - low).negative = false := by
    rw [heq, negative_ofMagnitude (hle.trans_lt (by decide))]
  have hmagnitude : (high - low).magnitude =
      nearestMagnitude (high.units - low.units).natAbs 1 := by
    rw [heq, magnitude_ofMagnitude (hle.trans_lt (by decide))]
  obtain ⟨hfinite, hpositive, hstep, hshort⟩ := mul_unitFraction hwidth hsign word
  refine ⟨magnitudeUnits ((high - low) * unitFraction word).magnitude, hfinite, ?_, ?_, ?_⟩
  · rw [units_eq_magnitudeUnits, hpositive]
    rfl
  · rw [hmagnitude] at hstep hshort
    have hwithin := magnitudeUnits_le_of_step hstep hshort
    omega
  · intro hlarge
    exact strictMono_magnitudeUnits.monotone (Nat.le_sub_one_of_lt (hshort hlarge))

end Draw

theorem range_fst (g : Generator) (low high : Binary32) :
    (g.range low high).1 = low + (high - low) * unitFraction g.next.1 := by
  simp only [range, nextFraction]

/-- If the width is exact and `high` is no larger, the number below `high` is no farther away from it
than the number below the width is from the width. -/
theorem range_lt_high (g : Generator) {low high : Binary32} (hlow : low.isFinite = true)
    (hhigh : high.isFinite = true) (hlt : low < high) (hwidth : (high - low).isFinite = true)
    (hzero : low.units ≤ 0) (hpositive : 0 < high.units)
    (hexact : (high - low).units = high.units - low.units) (hlarge : 2 ^ 23 < (high - low).units) :
    (g.range low high).1 < high := by
  obtain ⟨step, hfinite, hunits, -, hshort⟩ := exists_step hlow hhigh hlt hwidth g.next.1
  have hhighUnits : high.units = magnitudeUnits high.magnitude := by
    rcases units_cases high with ⟨-, h⟩ | ⟨-, h⟩ <;> omega
  have hwidthUnits : (high - low).units = magnitudeUnits (high - low).magnitude := by
    rcases units_cases (high - low) with ⟨-, h⟩ | ⟨-, h⟩ <;> omega
  have hpositive' : 0 < high.magnitude := by
    apply strictMono_magnitudeUnits.lt_iff_lt.mp
    rw [magnitudeUnits_zero]
    omega
  have hlarge' : 2 ^ 23 < (high - low).magnitude := by
    apply strictMono_magnitudeUnits.lt_iff_lt.mp
    rw [show magnitudeUnits (2 ^ 23) = 2 ^ 23 by rfl]
    omega
  have hle : high.magnitude ≤ (high - low).magnitude := by
    apply strictMono_magnitudeUnits.le_iff_le.mp
    omega
  have hgap := magnitudeUnits_gap_mono (Nat.sub_le_sub_right hle 1)
  rw [Nat.sub_add_cancel hpositive', Nat.sub_add_cancel (by omega)] at hgap
  have hstep := hshort hlarge'
  rw [range_fst]
  exact add_lt_of_units_le hlow hfinite hhigh hpositive (by omega)

/-- A draw from an interval lies between its ends.  The upper end is left out by an interval that
reaches over zero, if its width is a number larger than the least exponent and not rounded. -/
structure StaysWithin (g : Generator) (low high : Binary32) : Prop where
  low_le : low ≤ (g.range low high).1
  le_high : (g.range low high).1 ≤ high
  lt_high : low.units ≤ 0 → 0 < high.units → (high - low).units = high.units - low.units →
    2 ^ 23 < (high - low).units → (g.range low high).1 < high

theorem range_staysWithin (g : Generator) {low high : Binary32} (hlow : low.isFinite = true)
    (hhigh : high.isFinite = true) (hlt : low < high) (hwidth : (high - low).isFinite = true) :
    StaysWithin g low high := by
  obtain ⟨step, hfinite, hunits, hwithin, -⟩ := exists_step hlow hhigh hlt hwidth g.next.1
  constructor
  · rw [range_fst]
    exact le_add_of_units_le hlow hfinite hlt.1 (by omega)
  · rw [range_fst]
    exact add_le_of_units_le hlow hfinite hlt.2.1 (by omega)
  · exact range_lt_high g hlow hhigh hlt hwidth

/-- The interval from minus two to two. -/
theorem range_staysWithin_two :
    let two : Binary32 := ⟨0x40000000⟩
    (-two).isFinite = true ∧ two.isFinite = true ∧ -two < two ∧ (two - -two).isFinite = true ∧
      ∀ seed, -two ≤ ((ofSeed seed).range (-two) two).1 ∧
        ((ofSeed seed).range (-two) two).1 < two := by
  intro two
  have hlow : (-two).isFinite = true := by decide
  have hhigh : two.isFinite = true := by decide
  have hlt : -two < two := by decide
  have hwidth : (two - -two).isFinite = true := by decide
  refine ⟨hlow, hhigh, hlt, hwidth, fun seed => ?_⟩
  have hstays : StaysWithin (ofSeed seed) (-two) two := range_staysWithin _ hlow hhigh hlt hwidth
  exact ⟨hstays.low_le, hstays.lt_high (by decide) (by decide) (by decide) (by decide)⟩

/-- From one up to the next number, the draw from this seed is that number. -/
theorem range_reaches_high :
    let next : Binary32 := ⟨0x3f800001⟩
    one.isFinite = true ∧ next.isFinite = true ∧ one < next ∧ (next - one).isFinite = true ∧
      ((ofSeed 1000).range one next).1 = next ∧ ¬((ofSeed 1000).range one next).1 < next := by
  decide +kernel

end Generator
end SpriteField
