import SpriteField.Binary32.Arithmetic
import SpriteField.Proofs.Binary32.Whole

/-!
# Arithmetic without rounding

Rounding depends on the exact result alone, and it leaves the value of a binary32 number as it is.
A sum or difference whose exact value is one of a finite number is therefore exact.  In particular
the whole numbers up to `2 ^ 24` are added and subtracted without rounding.
-/

namespace SpriteField
namespace Binary32

/-! ## Words and magnitudes -/

theorem magnitude_lt (x : Binary32) : x.magnitude < 2 ^ 31 := by
  rw [magnitude, UInt32.toNat_mod]
  exact Nat.mod_lt _ (by decide)

theorem negative_eq (x : Binary32) : x.negative = decide (2 ^ 31 ≤ x.bits.toNat) := rfl

theorem magnitude_eq (x : Binary32) : x.magnitude = x.bits.toNat % 2 ^ 31 := by
  rw [magnitude, UInt32.toNat_mod]
  rfl

theorem toNat_bits_ofMagnitude {negative : Bool} {magnitude : Nat} (h : magnitude < 2 ^ 31) :
    (ofMagnitude negative magnitude).bits.toNat =
      if negative then 2 ^ 31 + magnitude else magnitude := by
  cases negative
  · simp only [ofMagnitude, Bool.false_eq_true, if_false]
    exact UInt32.toNat_ofNat_of_lt' (by simp only [UInt32.size]; omega)
  · simp only [ofMagnitude, if_true]
    exact UInt32.toNat_ofNat_of_lt' (by simp only [UInt32.size]; omega)

theorem magnitude_ofMagnitude {negative : Bool} {magnitude : Nat} (h : magnitude < 2 ^ 31) :
    (ofMagnitude negative magnitude).magnitude = magnitude := by
  rw [magnitude_eq, toNat_bits_ofMagnitude h]
  split <;> omega

theorem negative_ofMagnitude {negative : Bool} {magnitude : Nat} (h : magnitude < 2 ^ 31) :
    (ofMagnitude negative magnitude).negative = negative := by
  rw [negative_eq, toNat_bits_ofMagnitude h]
  cases negative
  · simp only [Bool.false_eq_true, if_false, decide_eq_false_iff_not]
    omega
  · simp only [if_true, decide_eq_true_eq]
    omega

theorem ofMagnitude_magnitude (x : Binary32) : ofMagnitude x.negative x.magnitude = x := by
  have hbits : (ofMagnitude x.negative x.magnitude).bits = x.bits := by
    apply UInt32.toNat_inj.mp
    have hlt := x.bits.toNat_lt
    rw [toNat_bits_ofMagnitude x.magnitude_lt, negative_eq, magnitude_eq]
    by_cases h : 2 ^ 31 ≤ x.bits.toNat
    · simp only [h, decide_true, if_true]
      omega
    · simp only [h, decide_false, Bool.false_eq_true, if_false]
      omega
  exact congrArg Binary32.mk hbits

theorem isFinite_ofMagnitude {negative : Bool} {magnitude : Nat}
    (h : magnitude < infinityMagnitude) : (ofMagnitude negative magnitude).isFinite = true := by
  have hlt : magnitude < 2 ^ 31 := Nat.lt_trans h (by decide)
  rw [isFinite, magnitude_ofMagnitude hlt]
  exact decide_eq_true h

theorem magnitude_lt_of_isFinite {x : Binary32} (h : x.isFinite = true) :
    x.magnitude < infinityMagnitude :=
  of_decide_eq_true h

/-! ## Rounding a value that needs no rounding -/

theorem roundQuotient_mul_right (num den : Nat) {factor : Nat} (h : 0 < factor) :
    roundQuotient (num * factor) (den * factor) = roundQuotient num den := by
  have htwice : 2 * (num % den * factor) = 2 * (num % den) * factor := by ring
  simp only [roundQuotient, Nat.mul_div_mul_right _ _ h, Nat.mul_mod_mul_right, htwice,
    Nat.mul_lt_mul_right h]

theorem roundQuotient_mul_self (num : Nat) {den : Nat} (h : 0 < den) :
    roundQuotient (num * den) den = num := by
  simp only [roundQuotient, Nat.mul_div_cancel _ h, Nat.mul_mod_left, Nat.mul_zero, h, if_true]

theorem log2_mul_two_pow {m : Nat} (hm : m ≠ 0) (up : Nat) :
    (m * 2 ^ up).log2 = m.log2 + up := by
  have hne : m * 2 ^ up ≠ 0 := Nat.mul_ne_zero hm (Nat.ne_of_gt (Nat.two_pow_pos up))
  have hlow : 2 ^ m.log2 * 2 ^ up ≤ m * 2 ^ up :=
    Nat.mul_le_mul_right _ (Nat.log2_self_le hm)
  have hhigh : m * 2 ^ up < 2 ^ (m.log2 + 1) * 2 ^ up :=
    Nat.mul_lt_mul_of_pos_right Nat.lt_log2_self (Nat.two_pow_pos up)
  rw [Nat.log2_eq_iff hne, pow_add, add_right_comm, pow_add _ _ up]
  exact ⟨hlow, hhigh⟩

theorem log2_div_two_pow (m down : Nat) : (m / 2 ^ down).log2 = m.log2 - down := by
  rw [Nat.log2_eq_log_two, Nat.log2_eq_log_two, Nat.log_div_base_pow]

/-- The dyadic form of rounding depends on the value `m * 2 ^ up / 2 ^ down` alone. -/
theorem nearestDyadic_eq_nearestMagnitude (m up down : Nat) :
    nearestDyadic m up down = nearestMagnitude (m * 2 ^ up) (2 ^ down) := by
  by_cases hm : m = 0
  · subst hm
    simp [nearestDyadic, nearestMagnitude, roundQuotient]
  · have hlog : (m * 2 ^ up / 2 ^ down).log2 - 23 = m.log2 + up - (down + 23) := by
      rw [log2_div_two_pow, log2_mul_two_pow hm, Nat.sub_sub]
    simp only [nearestDyadic, if_neg hm, nearestMagnitude, hlog, Nat.shiftLeft_eq, one_mul,
      ← pow_add]
    set exponent := m.log2 + up - (down + 23)
    congr 2
    by_cases hle : down + exponent ≤ up
    · have hsplit : m * 2 ^ up = m * 2 ^ (up - (down + exponent)) * 2 ^ (down + exponent) := by
        rw [mul_assoc, ← pow_add, Nat.sub_add_cancel hle]
      rw [if_pos hle, hsplit, roundQuotient_mul_self _ (Nat.two_pow_pos (down + exponent))]
    · have hsplit : 2 ^ (down + exponent) = 2 ^ (down + exponent - up) * 2 ^ up := by
        rw [← pow_add, Nat.sub_add_cancel (Nat.le_of_not_le hle)]
      rw [if_neg hle, hsplit, roundQuotient_mul_right _ _ (Nat.two_pow_pos up)]

theorem nearestMagnitude_magnitudeUnits {magnitude : Nat} (h : magnitude ≤ infinityMagnitude) :
    nearestMagnitude (magnitudeUnits magnitude) 1 = magnitude := by
  have hmin : min magnitude infinityMagnitude = magnitude := Nat.min_eq_left h
  rcases magnitude_cases magnitude with hsmall | ⟨scale, fraction, hfraction, rfl⟩
  · have hexponent : magnitude.log2 - 23 = 0 := by
      by_cases hzero : magnitude = 0
      · subst hzero
        decide
      · have hlog : magnitude.log2 < 23 := (Nat.log2_lt hzero).mpr hsmall
        omega
    have hround := roundQuotient_mul_self magnitude Nat.one_pos
    rw [Nat.mul_one] at hround
    simp only [nearestMagnitude, magnitudeUnits_of_lt hsmall, Nat.div_one, hexponent,
      Nat.one_shiftLeft, pow_zero, hround, Nat.zero_mul, Nat.zero_add, hmin]
  · have hlog : ((2 ^ 23 + fraction) * 2 ^ scale).log2 = 23 + scale := by
      have hsignificand : (2 ^ 23 + fraction).log2 = 23 := by
        rw [Nat.log2_eq_iff (by omega)]
        omega
      rw [log2_mul_two_pow (by omega), hsignificand]
    have hexponent : 23 + scale - 23 = scale := by omega
    have hsum : scale * 0x800000 + (2 ^ 23 + fraction) = (scale + 1) * 2 ^ 23 + fraction := by
      ring
    simp only [nearestMagnitude, magnitudeUnits_normal hfraction, Nat.div_one, hlog, hexponent,
      Nat.one_shiftLeft, roundQuotient_mul_self _ (Nat.two_pow_pos scale), hsum, hmin]

/-- An exponent field and a significand are put together by addition, also if the significand has
been rounded up to `2 ^ 24`. -/
theorem magnitudeUnits_pack {exponent significand : Nat} (hle : significand ≤ 2 ^ 24)
    (hnormal : 0 < exponent → 2 ^ 23 ≤ significand) :
    magnitudeUnits (exponent * 2 ^ 23 + significand) = significand * 2 ^ exponent := by
  by_cases hsmall : significand < 2 ^ 23
  · have hzero : exponent = 0 := by omega
    rw [hzero, zero_mul, zero_add, magnitudeUnits_of_lt hsmall, pow_zero, mul_one]
  by_cases hlt : significand < 2 ^ 24
  · have hsum : exponent * 2 ^ 23 + significand =
        (exponent + 1) * 2 ^ 23 + (significand - 2 ^ 23) := by omega
    rw [hsum, magnitudeUnits_normal (by omega), Nat.add_sub_cancel' (by omega)]
  · have hsum : exponent * 2 ^ 23 + significand = (exponent + 1 + 1) * 2 ^ 23 + 0 := by omega
    rw [hsum, magnitudeUnits_normal (by decide), show significand = 2 ^ 24 by omega]
    ring

/-- Twenty-four significant bits at any scale are the value of some magnitude. -/
theorem exists_magnitudeUnits_eq {significand : Nat} (h : significand ≤ 2 ^ 24) (scale : Nat) :
    ∃ magnitude, magnitudeUnits magnitude = significand * 2 ^ scale := by
  induction scale generalizing significand with
  | zero => exact ⟨_, magnitudeUnits_pack h (by simp)⟩
  | succ scale ih =>
    by_cases hsmall : significand < 2 ^ 23
    · obtain ⟨magnitude, hmagnitude⟩ := @ih (2 * significand) (by omega)
      exact ⟨magnitude, by rw [hmagnitude, pow_succ]; ring⟩
    · exact ⟨_, magnitudeUnits_pack h fun _ => Nat.le_of_not_lt hsmall⟩

/-! ## Sums -/

theorem isInfinite_of_isFinite {x : Binary32} (h : x.isFinite = true) : x.isInfinite = false := by
  have hlt := magnitude_lt_of_isFinite h
  simp only [isInfinite, decide_eq_false_iff_not]
  omega

theorem units_of_isZero {x : Binary32} (h : x.isZero = true) : x.units = 0 := by
  have hzero : x.magnitude = 0 := of_decide_eq_true h
  simp [units_eq_magnitudeUnits, hzero]

theorem units_cases (x : Binary32) :
    x.negative = false ∧ x.units = magnitudeUnits x.magnitude ∨
      x.negative = true ∧ x.units = -(magnitudeUnits x.magnitude : Int) := by
  rw [units_eq_magnitudeUnits]
  cases x.negative <;> simp

theorem magnitudeUnits_pos_of_isZero {x : Binary32} (h : x.isZero = false) :
    0 < magnitudeUnits x.magnitude :=
  magnitudeUnits_pos (Nat.pos_of_ne_zero (of_decide_eq_false h))

theorem aligned_mul (x : Binary32) {scale : Nat} (h : scale ≤ x.scale) :
    x.significand <<< (x.scale - scale) * 2 ^ scale = magnitudeUnits x.magnitude := by
  rw [Nat.shiftLeft_eq, mul_assoc, ← pow_add, Nat.sub_add_cancel h, significand_mul_scale]

theorem units_add_of_negative_eq {x y : Binary32} (hx : x.isZero = false)
    (h : x.negative = y.negative) :
    decide (x.units + y.units < 0) = x.negative ∧ (x.units + y.units).natAbs =
      magnitudeUnits x.magnitude + magnitudeUnits y.magnitude := by
  have hpos := magnitudeUnits_pos_of_isZero hx
  rcases units_cases x with ⟨hxsign, hxunits⟩ | ⟨hxsign, hxunits⟩
  · rw [hxsign] at h ⊢
    rw [hxunits, units_eq_magnitudeUnits y, ← h, decide_eq_false_iff_not]
    constructor
    · simp
      omega
    · simp
      omega
  · rw [hxsign] at h ⊢
    rw [hxunits, units_eq_magnitudeUnits y, ← h, decide_eq_true_eq]
    constructor
    · simp
      omega
    · simp
      omega

/-- Of two numbers with opposite signs, the larger magnitude gives the sign of the sum. -/
theorem units_add_of_magnitude_lt {x y : Binary32} (h : x.negative ≠ y.negative)
    (hlt : magnitudeUnits y.magnitude < magnitudeUnits x.magnitude) :
    decide (x.units + y.units < 0) = x.negative ∧ (x.units + y.units).natAbs =
      magnitudeUnits x.magnitude - magnitudeUnits y.magnitude := by
  rcases units_cases x with ⟨hxsign, hxunits⟩ | ⟨hxsign, hxunits⟩ <;>
    rcases units_cases y with ⟨hysign, hyunits⟩ | ⟨hysign, hyunits⟩
  · exact absurd (hxsign.trans hysign.symm) h
  · rw [hxsign, decide_eq_false_iff_not]
    omega
  · rw [hxsign, decide_eq_true_eq]
    omega
  · exact absurd (hxsign.trans hysign.symm) h

theorem units_add_of_magnitude_eq {x y : Binary32} (h : x.negative ≠ y.negative)
    (heq : magnitudeUnits x.magnitude = magnitudeUnits y.magnitude) : x.units + y.units = 0 := by
  rcases units_cases x with ⟨hxsign, hxunits⟩ | ⟨hxsign, hxunits⟩ <;>
    rcases units_cases y with ⟨hysign, hyunits⟩ | ⟨hysign, hyunits⟩
  · exact absurd (hxsign.trans hysign.symm) h
  · omega
  · omega
  · exact absurd (hxsign.trans hysign.symm) h

theorem addNonzero_eq {x y : Binary32} (hx : x.isZero = false) :
    addNonzero x y = ofMagnitude (decide (x.units + y.units < 0))
      (nearestMagnitude (x.units + y.units).natAbs 1) := by
  have hround : ∀ m scale, nearestDyadic m scale 0 = nearestMagnitude (m * 2 ^ scale) 1 :=
    fun m scale => nearestDyadic_eq_nearestMagnitude m scale 0
  rw [addNonzero]
  set scale := min x.scale y.scale
  have ha := aligned_mul x (Nat.min_le_left x.scale y.scale)
  have hb := aligned_mul y (Nat.min_le_right x.scale y.scale)
  set a := x.significand <<< (x.scale - scale)
  set b := y.significand <<< (y.scale - scale)
  by_cases hsame : x.negative = y.negative
  · obtain ⟨hsign, habs⟩ := units_add_of_negative_eq hx hsame
    rw [if_pos hsame, hsign, hround, Nat.add_mul, ha, hb, ← habs]
  rw [if_neg hsame]
  by_cases hba : b < a
  · obtain ⟨hsign, habs⟩ := units_add_of_magnitude_lt hsame
      (by rw [← ha, ← hb]; exact Nat.mul_lt_mul_of_pos_right hba (Nat.two_pow_pos scale))
    rw [if_pos hba, hsign, hround, Nat.sub_mul, ha, hb, ← habs]
  rw [if_neg hba]
  by_cases hab : a < b
  · obtain ⟨hsign, habs⟩ := units_add_of_magnitude_lt (Ne.symm hsame)
      (by rw [← ha, ← hb]; exact Nat.mul_lt_mul_of_pos_right hab (Nat.two_pow_pos scale))
    rw [add_comm x.units, if_pos hab, hsign, hround, Nat.sub_mul, ha, hb, ← habs]
  · have heq : magnitudeUnits x.magnitude = magnitudeUnits y.magnitude := by
      rw [← ha, ← hb, show a = b by omega]
    -- The operands cancel, so the magnitude is that of zero.
    rw [if_neg hab, units_add_of_magnitude_eq hsame heq]
    rfl

/-- The sign of an exact sum; a sum of zeros is negative if both of them are. -/
def sumNegative (x y : Binary32) : Bool :=
  if x.isZero && y.isZero then x.negative && y.negative else decide (x.units + y.units < 0)

/-- A nonzero number is what its own value is rounded to. -/
theorem ofMagnitude_nearestMagnitude_units {x : Binary32} (hfinite : x.isFinite = true)
    (hx : x.isZero = false) :
    ofMagnitude (decide (x.units < 0)) (nearestMagnitude x.units.natAbs 1) = x := by
  have hpos := magnitudeUnits_pos_of_isZero hx
  have hround := nearestMagnitude_magnitudeUnits (magnitude_lt_of_isFinite hfinite).le
  have hself := ofMagnitude_magnitude x
  rcases units_cases x with ⟨hsign, hunits⟩ | ⟨hsign, hunits⟩
  · rw [hsign] at hself
    rw [hunits, Int.natAbs_natCast, hround, decide_eq_false (by omega), hself]
  · rw [hsign] at hself
    rw [hunits, Int.natAbs_neg, Int.natAbs_natCast, hround, decide_eq_true (by omega), hself]

/-- A sum is the exact sum rounded once. -/
theorem add_eq {x y : Binary32} (hx : x.isFinite = true) (hy : y.isFinite = true) :
    x + y = ofMagnitude (sumNegative x y) (nearestMagnitude (x.units + y.units).natAbs 1) := by
  change add x y = _
  rw [add, isNaN_of_isFinite hx, isNaN_of_isFinite hy, isInfinite_of_isFinite hx,
    isInfinite_of_isFinite hy, sumNegative]
  simp only [Bool.or_self, Bool.false_eq_true, if_false]
  cases hyzero : y.isZero
  · cases hxzero : x.isZero
    · simp only [Bool.false_eq_true, if_false, Bool.and_false]
      exact addNonzero_eq hxzero
    · rw [units_of_isZero hxzero, zero_add]
      simp only [Bool.false_eq_true, if_false, if_true, Bool.and_false]
      exact (ofMagnitude_nearestMagnitude_units hy hyzero).symm
  · cases hxzero : x.isZero
    · rw [units_of_isZero hyzero, add_zero]
      simp only [Bool.false_eq_true, if_false, if_true, Bool.false_and]
      exact (ofMagnitude_nearestMagnitude_units hx hxzero).symm
    · rw [units_of_isZero hyzero, units_of_isZero hxzero]
      rfl

/-- A sum whose exact value is that of a magnitude is not rounded. -/
theorem add_eq_ofMagnitude {x y : Binary32} {magnitude : Nat}
    (hx : x.isFinite = true) (hy : y.isFinite = true)
    (hsum : (x.units + y.units).natAbs = magnitudeUnits magnitude)
    (hmagnitude : magnitude ≤ infinityMagnitude) :
    x + y = ofMagnitude (sumNegative x y) magnitude := by
  rw [add_eq hx hy, hsum, nearestMagnitude_magnitudeUnits hmagnitude]

/-! ## Whole numbers up to `2 ^ 24` -/

theorem exists_ofNat_eq {n : Nat} (h : n ≤ 2 ^ 24) :
    ∃ magnitude, magnitude < infinityMagnitude ∧
      magnitudeUnits magnitude = n * unitsPerOne ∧ ofNat n = ofMagnitude false magnitude := by
  obtain ⟨magnitude, hunits⟩ := exists_magnitudeUnits_eq h 149
  have hinfinity : magnitudeUnits infinityMagnitude = 2 ^ 128 * unitsPerOne := by decide
  have hlt : magnitude < infinityMagnitude := by
    apply strictMono_magnitudeUnits.lt_iff_lt.mp
    rw [hunits, hinfinity]
    exact Nat.mul_lt_mul_of_pos_right (by omega) (Nat.two_pow_pos 149)
  refine ⟨magnitude, hlt, hunits, ?_⟩
  rw [ofNat, nearestDyadic_eq_nearestMagnitude, unitExponent, ← hunits, pow_zero,
    nearestMagnitude_magnitudeUnits (Nat.le_of_lt hlt)]

theorem isFinite_ofNat {n : Nat} (h : n ≤ 2 ^ 24) : (ofNat n).isFinite = true := by
  obtain ⟨magnitude, hlt, -, heq⟩ := exists_ofNat_eq h
  rw [heq, isFinite_ofMagnitude hlt]

theorem isNaN_ofNat {n : Nat} (h : n ≤ 2 ^ 24) : (ofNat n).isNaN = false :=
  isNaN_of_isFinite (isFinite_ofNat h)

theorem negative_ofNat {n : Nat} (h : n ≤ 2 ^ 24) : (ofNat n).negative = false := by
  obtain ⟨magnitude, hlt, -, heq⟩ := exists_ofNat_eq h
  rw [heq, negative_ofMagnitude (Nat.lt_trans hlt (by decide))]

theorem magnitudeUnits_ofNat {n : Nat} (h : n ≤ 2 ^ 24) :
    magnitudeUnits (ofNat n).magnitude = n * unitsPerOne := by
  obtain ⟨magnitude, hlt, hunits, heq⟩ := exists_ofNat_eq h
  rw [heq, magnitude_ofMagnitude (Nat.lt_trans hlt (by decide)), hunits]

theorem units_ofNat {n : Nat} (h : n ≤ 2 ^ 24) : (ofNat n).units = n * unitsPerOne := by
  rw [units_eq_magnitudeUnits, negative_ofNat h, magnitudeUnits_ofNat h]
  push_cast
  rfl

theorem ofNat_lt_ofNat {m n : Nat} (hm : m ≤ 2 ^ 24) (hn : n ≤ 2 ^ 24) :
    ofNat m < ofNat n ↔ m < n := by
  rw [lt_iff_units (isNaN_ofNat hm) (isNaN_ofNat hn), units_ofNat hm, units_ofNat hn]
  unfold unitsPerOne
  omega

theorem ofNat_le_ofNat {m n : Nat} (hm : m ≤ 2 ^ 24) (hn : n ≤ 2 ^ 24) :
    ofNat m ≤ ofNat n ↔ m ≤ n := by
  rw [le_iff_units (isNaN_ofNat hm) (isNaN_ofNat hn), units_ofNat hm, units_ofNat hn]
  unfold unitsPerOne
  omega

theorem ofNat_add_ofNat {m n : Nat} (h : m + n ≤ 2 ^ 24) : ofNat m + ofNat n = ofNat (m + n) := by
  have hm : m ≤ 2 ^ 24 := by omega
  have hn : n ≤ 2 ^ 24 := by omega
  obtain ⟨magnitude, hlt, hunits, heq⟩ := exists_ofNat_eq h
  have hsum : (ofNat m).units + (ofNat n).units = (magnitudeUnits magnitude : Int) := by
    rw [units_ofNat hm, units_ofNat hn, hunits]
    push_cast
    ring
  have hsign : sumNegative (ofNat m) (ofNat n) = false := by
    rw [sumNegative, negative_ofNat hm, negative_ofNat hn, hsum]
    simp
  rw [add_eq_ofMagnitude (isFinite_ofNat hm) (isFinite_ofNat hn) (by rw [hsum]; rfl)
    (Nat.le_of_lt hlt), hsign, heq]

@[simp] theorem magnitude_neg (x : Binary32) : (-x).magnitude = x.magnitude :=
  magnitude_ofMagnitude x.magnitude_lt

@[simp] theorem negative_neg (x : Binary32) : (-x).negative = !x.negative :=
  negative_ofMagnitude x.magnitude_lt

@[simp] theorem units_neg (x : Binary32) : (-x).units = -x.units := by
  rw [units_eq_magnitudeUnits, units_eq_magnitudeUnits, magnitude_neg, negative_neg]
  cases x.negative <;> simp

@[simp] theorem isFinite_neg (x : Binary32) : (-x).isFinite = x.isFinite := by
  rw [isFinite, isFinite, magnitude_neg]

theorem ofNat_sub_ofNat {m n : Nat} (hm : m ≤ 2 ^ 24) (hle : n ≤ m) :
    ofNat m - ofNat n = ofNat (m - n) := by
  have hn : n ≤ 2 ^ 24 := by omega
  obtain ⟨magnitude, hlt, hunits, heq⟩ := exists_ofNat_eq (show m - n ≤ 2 ^ 24 by omega)
  have hsum : (ofNat m).units + (-ofNat n).units = (magnitudeUnits magnitude : Int) := by
    rw [units_neg, units_ofNat hm, units_ofNat hn, hunits, Nat.cast_mul, Nat.cast_sub hle]
    ring
  have hsign : sumNegative (ofNat m) (-ofNat n) = false := by
    rw [sumNegative, negative_ofNat hm, hsum]
    simp
  change ofNat m + -ofNat n = _
  rw [add_eq_ofMagnitude (isFinite_ofNat hm) (by rw [isFinite_neg, isFinite_ofNat hn])
    (by rw [hsum]; rfl) (Nat.le_of_lt hlt), hsign, heq]

theorem toNat_ofNat {n : Nat} (h : n ≤ 2 ^ 24) : (ofNat n).toNat = n := by
  rw [toNat, isNaN_ofNat h, negative_ofNat h, wholePart_eq, magnitudeUnits_ofNat h,
    Nat.mul_div_cancel _ (Nat.two_pow_pos 149)]
  simp only [Bool.or_self, Bool.false_eq_true, if_false]
  omega

theorem zero_eq_ofNat : zero = ofNat 0 := rfl

end Binary32
end SpriteField
