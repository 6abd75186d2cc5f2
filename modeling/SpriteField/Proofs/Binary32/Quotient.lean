import SpriteField.Proofs.Binary32.Exact

/-!
# Quotients of whole numbers

A quotient is the exact ratio rounded once.  Rounding never turns an order around, but it may bring
two ratios together.  The ratios of two whole numbers to a third one that is at least as large, and
no larger than `2 ^ 24`, stay apart: they differ by more than neighbouring numbers do, or else the
third number is `2 ^ 24` and nothing is rounded at all.
-/

namespace SpriteField
namespace Binary32

/-! ## The nearest whole number -/

theorem roundQuotient_cases (num den : Nat) :
    (roundQuotient num den = num / den ∧ 2 * (num % den) ≤ den) ∨
      (roundQuotient num den = num / den + 1 ∧ den ≤ 2 * (num % den)) := by
  simp only [roundQuotient]
  split
  · omega
  · split
    · omega
    · omega

theorem roundQuotient_mono {num num' : Nat} (den : Nat) (h : num ≤ num') :
    roundQuotient num den ≤ roundQuotient num' den := by
  have hquotient : num / den ≤ num' / den := Nat.div_le_div_right h
  rcases hquotient.eq_or_lt with heq | hlt
  · by_cases hsame : num = num'
    · rw [hsame]
    -- With equal quotients the larger number has the larger remainder.
    have hnum := Nat.div_add_mod num den
    have hnum' := Nat.div_add_mod num' den
    rw [← heq] at hnum'
    rcases roundQuotient_cases num den with ⟨hround, -⟩ | ⟨hround, hhalf⟩ <;>
      rcases roundQuotient_cases num' den with ⟨hround', hhalf'⟩ | ⟨hround', -⟩ <;> omega
  · rcases roundQuotient_cases num den with ⟨hround, -⟩ | ⟨hround, -⟩ <;>
      rcases roundQuotient_cases num' den with ⟨hround', -⟩ | ⟨hround', -⟩ <;> omega

theorem two_mul_roundQuotient_le (num den : Nat) :
    2 * (roundQuotient num den * den) ≤ 2 * num + den := by
  have hnum := Nat.div_add_mod' num den
  rcases roundQuotient_cases num den with ⟨hround, -⟩ | ⟨hround, hhalf⟩
  · rw [hround]
    omega
  · rw [hround, add_one_mul (num / den) den]
    omega

theorem le_two_mul_roundQuotient (num : Nat) {den : Nat} (hden : 0 < den) :
    2 * num ≤ 2 * (roundQuotient num den * den) + den := by
  have hnum := Nat.div_add_mod' num den
  rcases roundQuotient_cases num den with ⟨hround, hhalf⟩ | ⟨hround, -⟩
  · rw [hround]
    omega
  · have hmod := Nat.mod_lt num hden
    rw [hround, add_one_mul (num / den) den]
    omega

/-! ## The nearest number -/

/-- The exponent that leaves twenty-four significant bits of a number of units. -/
def exponentOf (units : Nat) : Nat :=
  units.log2 - 23

theorem nearestMagnitude_eq (num den : Nat) :
    nearestMagnitude num den = min (exponentOf (num / den) * 2 ^ 23 +
      roundQuotient num (den * 2 ^ exponentOf (num / den))) infinityMagnitude := by
  simp only [nearestMagnitude, exponentOf, Nat.shiftLeft_eq]
  rfl

theorem lt_two_pow_exponentOf (units : Nat) : units < 2 ^ 24 * 2 ^ exponentOf units := by
  rw [← pow_add]
  exact Nat.lt_log2_self.trans_le (Nat.pow_le_pow_right (by decide) (by rw [exponentOf]; omega))

theorem two_pow_exponentOf_le {units : Nat} (h : 0 < exponentOf units) :
    2 ^ 23 * 2 ^ exponentOf units ≤ units := by
  have hlog : 23 + exponentOf units = units.log2 := by
    rw [exponentOf] at h ⊢
    omega
  have hne : units ≠ 0 := by
    rintro rfl
    simp [exponentOf] at h
  rw [← pow_add, hlog]
  exact Nat.log2_self_le hne

theorem exponentOf_le {units exponent : Nat} (h : units < 2 ^ (24 + exponent)) :
    exponentOf units ≤ exponent := by
  by_contra hlt
  have hle := two_pow_exponentOf_le (show 0 < exponentOf units by omega)
  rw [← pow_add] at hle
  have hpow : 2 ^ (24 + exponent) ≤ 2 ^ (23 + exponentOf units) :=
    Nat.pow_le_pow_right (by decide) (by omega)
  omega

theorem exponentOf_mono {units units' : Nat} (h : units ≤ units') :
    exponentOf units ≤ exponentOf units' := by
  apply exponentOf_le
  rw [pow_add]
  exact h.trans_lt (lt_two_pow_exponentOf units')

section Nearest

variable {num num' den : Nat} (hden : 0 < den)
include hden

theorem significand_le (num : Nat) :
    roundQuotient num (den * 2 ^ exponentOf (num / den)) ≤ 2 ^ 24 := by
  have hlt := lt_two_pow_exponentOf (num / den)
  rw [Nat.div_lt_iff_lt_mul hden] at hlt
  have hle : num ≤ 2 ^ 24 * (den * 2 ^ exponentOf (num / den)) := by
    refine hlt.le.trans_eq ?_
    ring
  have hround := roundQuotient_mono (den * 2 ^ exponentOf (num / den)) hle
  rwa [roundQuotient_mul_self _ (by positivity)] at hround

theorem le_significand (h : 0 < exponentOf (num / den)) :
    2 ^ 23 ≤ roundQuotient num (den * 2 ^ exponentOf (num / den)) := by
  have hle := two_pow_exponentOf_le h
  rw [Nat.le_div_iff_mul_le hden] at hle
  have hle' : 2 ^ 23 * (den * 2 ^ exponentOf (num / den)) ≤ num := by
    refine le_of_eq_of_le ?_ hle
    ring
  have hround := roundQuotient_mono (den * 2 ^ exponentOf (num / den)) hle'
  rwa [roundQuotient_mul_self _ (by positivity)] at hround

theorem nearestMagnitude_mono (h : num ≤ num') :
    nearestMagnitude num den ≤ nearestMagnitude num' den := by
  have hexponent := exponentOf_mono (Nat.div_le_div_right (c := den) h)
  rw [nearestMagnitude_eq, nearestMagnitude_eq]
  apply min_le_min_right
  rcases hexponent.eq_or_lt with heq | hlt
  · rw [← heq]
    exact Nat.add_le_add_left (roundQuotient_mono _ h) _
  · -- A significand of at most `2 ^ 24` does not get past the next exponent.
    have hle := significand_le hden num
    have hle' := le_significand hden (show 0 < exponentOf (num' / den) by omega)
    omega

omit hden in
theorem nearestMagnitude_mul_right (num den : Nat) {factor : Nat} (hfactor : 0 < factor) :
    nearestMagnitude (num * factor) (den * factor) = nearestMagnitude num den := by
  rw [nearestMagnitude_eq, nearestMagnitude_eq, Nat.mul_div_mul_right _ _ hfactor,
    mul_right_comm, roundQuotient_mul_right _ _ hfactor]

/-- Up to one, which is `2 ^ 149` units, nothing becomes infinite. -/
theorem magnitudeUnits_nearestMagnitude (h : num ≤ den * 2 ^ 149) :
    magnitudeUnits (nearestMagnitude num den) =
      roundQuotient num (den * 2 ^ exponentOf (num / den)) * 2 ^ exponentOf (num / den) := by
  have hexponent : exponentOf (num / den) ≤ 126 := by
    apply exponentOf_le
    rw [Nat.div_lt_iff_lt_mul hden, mul_comm]
    exact h.trans_lt (Nat.mul_lt_mul_of_pos_left (by decide) hden)
  have hle := significand_le hden num
  rw [nearestMagnitude_eq, Nat.min_eq_left (by rw [infinityMagnitude]; omega)]
  exact magnitudeUnits_pack hle fun hpos => le_significand hden hpos

/-- Below one the error is at most half of `2 ^ 125` units. -/
theorem error_le (h : num < den * 2 ^ 149) :
    2 * (magnitudeUnits (nearestMagnitude num den) * den) ≤ 2 * num + den * 2 ^ 125 ∧
      2 * num ≤ 2 * (magnitudeUnits (nearestMagnitude num den) * den) + den * 2 ^ 125 := by
  have hexponent : exponentOf (num / den) ≤ 125 := by
    apply exponentOf_le
    rwa [Nat.div_lt_iff_lt_mul hden, mul_comm]
  have hstep : den * 2 ^ exponentOf (num / den) ≤ den * 2 ^ 125 :=
    Nat.mul_le_mul_left _ (Nat.pow_le_pow_right (by decide) hexponent)
  have hhigh := two_mul_roundQuotient_le num (den * 2 ^ exponentOf (num / den))
  have hlow := le_two_mul_roundQuotient num
    (show 0 < den * 2 ^ exponentOf (num / den) by positivity)
  rw [magnitudeUnits_nearestMagnitude hden h.le, mul_assoc, mul_comm (2 ^ _) den]
  omega

end Nearest

/-! ## Ratios of whole numbers -/

theorem nearestMagnitude_one {den : Nat} (hden : 0 < den) :
    nearestMagnitude (den * 2 ^ 149) den = one.magnitude := by
  have h := nearestMagnitude_mul_right (2 ^ 149) 1 hden
  rw [one_mul, mul_comm] at h
  rw [h]
  decide

/-- Multiples of `1 / 2 ^ 24` are not rounded. -/
theorem magnitudeUnits_nearestMagnitude_texel {m : Nat} (h : m ≤ 2 ^ 24) :
    magnitudeUnits (nearestMagnitude (m * 2 ^ 149) (2 ^ 24)) = m * 2 ^ 125 := by
  obtain ⟨magnitude, hunits⟩ := exists_magnitudeUnits_eq h 125
  have hle : magnitude ≤ infinityMagnitude := by
    have hinfinity : magnitudeUnits infinityMagnitude = 2 ^ 152 * 2 ^ 125 := by decide
    apply strictMono_magnitudeUnits.le_iff_le.mp
    rw [hunits, hinfinity]
    exact Nat.mul_le_mul_right _ (h.trans (by decide))
  have hsplit : m * 2 ^ 149 = m * 2 ^ 125 * 2 ^ 24 := by ring
  have hscale := nearestMagnitude_mul_right (m * 2 ^ 125) 1 (Nat.two_pow_pos 24)
  rw [one_mul] at hscale
  rw [hsplit, hscale, ← hunits, nearestMagnitude_magnitudeUnits hle]

theorem nearestMagnitude_strictMono {m n den : Nat} (hmn : m < n) (hn : n ≤ den)
    (hden : den ≤ 2 ^ 24) :
    nearestMagnitude (m * 2 ^ 149) den < nearestMagnitude (n * 2 ^ 149) den := by
  have hpos : 0 < den := by omega
  by_cases hfull : den = 2 ^ 24
  · subst hfull
    apply strictMono_magnitudeUnits.lt_iff_lt.mp
    rw [magnitudeUnits_nearestMagnitude_texel (by omega), magnitudeUnits_nearestMagnitude_texel hn]
    exact Nat.mul_lt_mul_of_pos_right hmn (Nat.two_pow_pos 125)
  have hle := nearestMagnitude_mono hpos (Nat.mul_le_mul_right (2 ^ 149) hmn.le)
  refine lt_of_le_of_ne hle ?_
  intro heq
  have hbelow : m * 2 ^ 149 < den * 2 ^ 149 :=
    Nat.mul_lt_mul_of_pos_right (by omega) (Nat.two_pow_pos 149)
  have hlow := (error_le hpos hbelow).1
  have hhigh : 2 * (n * 2 ^ 149) ≤
      2 * (magnitudeUnits (nearestMagnitude (n * 2 ^ 149) den) * den) + den * 2 ^ 125 := by
    rcases hn.eq_or_lt with rfl | hlt
    · have hone : magnitudeUnits one.magnitude = 2 ^ 149 := by decide
      rw [nearestMagnitude_one hpos, hone]
      omega
    · exact (error_le hpos (Nat.mul_lt_mul_of_pos_right hlt (Nat.two_pow_pos 149))).2
  -- One number near to both ratios puts them no more than `2 ^ 125` units apart.
  rw [heq] at hlow
  omega

/-! ## Quotients as numbers -/

theorem isNaN_ofMagnitude {magnitude : Nat} (h : magnitude ≤ infinityMagnitude) :
    (ofMagnitude false magnitude).isNaN = false := by
  rw [isNaN, magnitude_ofMagnitude (h.trans_lt (by decide))]
  exact decide_eq_false (Nat.not_lt.mpr h)

theorem key_ofMagnitude {magnitude : Nat} (h : magnitude ≤ infinityMagnitude) :
    (ofMagnitude false magnitude).key = magnitude := by
  have hlt : magnitude < 2 ^ 31 := h.trans_lt (by decide)
  rw [key, negative_ofMagnitude hlt, magnitude_ofMagnitude hlt]
  rfl

theorem ofMagnitude_le_ofMagnitude {m n : Nat} (hm : m ≤ infinityMagnitude)
    (hn : n ≤ infinityMagnitude) : ofMagnitude false m ≤ ofMagnitude false n ↔ m ≤ n := by
  change (_ = false ∧ _ = false ∧ _ ≤ _) ↔ _
  simp [isNaN_ofMagnitude hm, isNaN_ofMagnitude hn, key_ofMagnitude hm, key_ofMagnitude hn]

theorem ofMagnitude_lt_ofMagnitude {m n : Nat} (hm : m ≤ infinityMagnitude)
    (hn : n ≤ infinityMagnitude) : ofMagnitude false m < ofMagnitude false n ↔ m < n := by
  change (_ = false ∧ _ = false ∧ _ < _) ↔ _
  simp [isNaN_ofMagnitude hm, isNaN_ofMagnitude hn, key_ofMagnitude hm, key_ofMagnitude hn]

theorem nearestMagnitude_le (num den : Nat) : nearestMagnitude num den ≤ infinityMagnitude := by
  rw [nearestMagnitude_eq]
  exact Nat.min_le_right _ _

theorem ofRatio_eq (m den : Nat) :
    ofRatio false m den = ofMagnitude false (nearestMagnitude (m * 2 ^ 149) den) := by
  rw [ofRatio, unitExponent, Nat.shiftLeft_eq]

theorem ofNat_div_ofNat {m den : Nat} (hm : m ≤ 2 ^ 24) (hden : den ≤ 2 ^ 24) (hpos : 0 < den) :
    ofNat m / ofNat den = ofRatio false m den := by
  have hzero : (ofNat den).isZero = false := by
    rw [isZero, decide_eq_false_iff_not]
    intro hmagnitude
    have hunits := magnitudeUnits_ofNat hden
    rw [hmagnitude, magnitudeUnits_zero] at hunits
    have hpositive : 0 < den * unitsPerOne := Nat.mul_pos hpos (Nat.two_pow_pos 149)
    omega
  change div _ _ = _
  simp only [div, isNaN_ofNat hm, isNaN_ofNat hden, isInfinite_of_isFinite (isFinite_ofNat hm),
    isInfinite_of_isFinite (isFinite_ofNat hden), hzero, negative_ofNat hm, negative_ofNat hden,
    Nat.shiftLeft_eq, pow_add, ← mul_assoc, significand_mul_scale, magnitudeUnits_ofNat hm,
    magnitudeUnits_ofNat hden, ofRatio_eq, unitExponent]
  rw [nearestMagnitude_mul_right _ _ (Nat.two_pow_pos 149)]
  rfl

section Ratios

variable {m n den : Nat}

theorem ofRatio_le_ofRatio (hden : 0 < den) (h : m ≤ n) :
    ofRatio false m den ≤ ofRatio false n den := by
  rw [ofRatio_eq, ofRatio_eq,
    ofMagnitude_le_ofMagnitude (nearestMagnitude_le _ _) (nearestMagnitude_le _ _)]
  exact nearestMagnitude_mono hden (Nat.mul_le_mul_right _ h)

theorem ofRatio_lt_ofRatio_iff (hn : n ≤ den) (hpos : 0 < den)
    (hden : den ≤ 2 ^ 24) : ofRatio false m den < ofRatio false n den ↔ m < n := by
  rw [ofRatio_eq, ofRatio_eq,
    ofMagnitude_lt_ofMagnitude (nearestMagnitude_le _ _) (nearestMagnitude_le _ _)]
  constructor
  · intro hlt
    by_contra hle
    have hmono := nearestMagnitude_mono hpos (Nat.mul_le_mul_right (2 ^ 149) (Nat.not_lt.mp hle))
    omega
  · intro hlt
    exact nearestMagnitude_strictMono hlt hn hden

theorem zero_le_ofRatio (m : Nat) (hden : 0 < den) : zero ≤ ofRatio false m den := by
  have h := ofRatio_le_ofRatio hden (Nat.zero_le m)
  have hzero : nearestMagnitude 0 den = 0 := by
    simp [nearestMagnitude_eq, exponentOf, roundQuotient]
  rwa [ofRatio_eq 0, zero_mul, hzero] at h

theorem ofRatio_le_one (hden : 0 < den) (h : m ≤ den) : ofRatio false m den ≤ one := by
  have hle := ofRatio_le_ofRatio hden h
  rwa [ofRatio_eq den, nearestMagnitude_one hden] at hle

end Ratios

end Binary32
end SpriteField
