import SpriteField.Generator
import Mathlib.Data.Nat.Count
import Mathlib.NumberTheory.Multiplicity
import Mathlib.Order.Interval.Finset.Nat
import Mathlib.Tactic

/-!
# The period of the generator

A draw is an affine map of the draw before it, taken modulo `2 ^ 32`.  The multiplier leaves one when
it is divided by four and the increment is odd, so `n` draws lead back to where they started if and
only if `2 ^ 32` divides `n`.  Hence `2 ^ 32` draws in a row are all of the words, each of them once.

A bounded draw scales a word down to its bound.  The words that go to one value are those of an
interval, and all of these intervals are of the same length up to one.
-/

namespace SpriteField

/-! ## Affine maps on integers -/

theorem iterate_affine_sub (a c x : ℤ) (n : ℕ) :
    (fun x => a * x + c)^[n] x - x =
      (∑ i ∈ Finset.range n, a ^ i) * ((a - 1) * x + c) := by
  induction n with
  | zero => simp
  | succ n ih =>
    rw [Function.iterate_succ_apply', Finset.sum_range_succ]
    linear_combination a * ih + ((a - 1) * x + c) * mul_geom_sum a n

/-- Sums of powers of such a number are as even as their numbers of terms. -/
theorem two_pow_dvd_geom_sum_iff {a : ℤ} (ha : 4 ∣ a - 1) (hone : a ≠ 1) (k n : ℕ) :
    2 ^ k ∣ ∑ i ∈ Finset.range n, a ^ i ↔ (2 : ℤ) ^ k ∣ n := by
  have hlift := Int.two_pow_sub_pow' (y := 1) n ha (by omega)
  rw [one_pow, ← mul_geom_sum, emultiplicity_mul Int.prime_two] at hlift
  have hfinite : emultiplicity 2 (a - 1) ≠ ⊤ := by
    rw [ne_eq, emultiplicity_eq_top, not_not, Int.finiteMultiplicity_iff]
    exact ⟨by decide, sub_ne_zero.mpr hone⟩
  rw [pow_dvd_iff_le_emultiplicity, pow_dvd_iff_le_emultiplicity,
    WithTop.add_left_cancel hfinite hlift]

/-- Modulo a power of two, such a map has this power as its period. -/
theorem two_pow_dvd_iterate_affine_sub_iff {a c : ℤ} (ha : 4 ∣ a - 1) (hone : a ≠ 1)
    (hc : ¬2 ∣ c) (x : ℤ) (k n : ℕ) :
    2 ^ k ∣ (fun x => a * x + c)^[n] x - x ↔ (2 : ℤ) ^ k ∣ n := by
  have hodd : ¬2 ∣ (a - 1) * x + c := by
    have heven : 2 ∣ (a - 1) * x := Dvd.dvd.mul_right (by omega) x
    omega
  have hcoprime : IsCoprime ((2 : ℤ) ^ k) ((a - 1) * x + c) :=
    (Int.prime_two.coprime_iff_not_dvd.mpr hodd).pow_left
  rw [iterate_affine_sub, ← two_pow_dvd_geom_sum_iff ha hone]
  exact ⟨hcoprime.dvd_of_dvd_mul_right, fun h => h.mul_right _⟩

namespace Generator

/-! ## Words -/

/-- The word that is drawn after the word `word`. -/
def nextWord (word : UInt32) : UInt32 :=
  1664525 * word + 1013904223

theorem toUInt32_nextState (state : UInt64) :
    (nextState state).toUInt32 = nextWord state.toUInt32 := by
  apply UInt32.toNat_inj.mp
  simp only [nextState, nextWord, UInt64.toNat_toUInt32, UInt64.toNat_mod, UInt64.toNat_add,
    UInt64.toNat_mul, UInt32.toNat_add, UInt32.toNat_mul, UInt64.reduceToNat, UInt32.reduceToNat]
  omega

theorem iterate_nextWord_eq_iff (word : UInt32) (n : ℕ) :
    nextWord^[n] word = word ↔ 2 ^ 32 ∣ n := by
  -- Without the reduction the draws are integers.
  have hlift : (nextWord^[n] word).toNat ≡
      (fun x : ℤ => 1664525 * x + 1013904223)^[n] word.toNat [ZMOD 2 ^ 32] := by
    induction n with
    | zero => rfl
    | succ n ih =>
      rw [Function.iterate_succ_apply', Function.iterate_succ_apply']
      have hnext : (nextWord (nextWord^[n] word)).toNat ≡
          1664525 * (nextWord^[n] word).toNat + 1013904223 [ZMOD 2 ^ 32] := by
        simp only [nextWord, UInt32.toNat_add, UInt32.toNat_mul, UInt32.reduceToNat, Int.ModEq]
        omega
      exact hnext.trans ((ih.mul_left _).add_right _)
  have hword : nextWord^[n] word = word ↔ (nextWord^[n] word).toNat ≡ word.toNat [ZMOD 2 ^ 32] := by
    have hlt := word.toNat_lt
    have hlt' := (nextWord^[n] word).toNat_lt
    rw [← UInt32.toNat_inj, Int.ModEq]
    omega
  have hback : (nextWord^[n] word).toNat ≡ word.toNat [ZMOD 2 ^ 32] ↔ (2 : ℤ) ^ 32 ∣ n := by
    rw [← two_pow_dvd_iterate_affine_sub_iff (a := 1664525) (c := 1013904223) (by norm_num)
      (by norm_num) (by norm_num) word.toNat, ← Int.modEq_iff_dvd]
    exact ⟨fun h => h.symm.trans hlift, fun h => hlift.trans h.symm⟩
  rw [hword, hback]
  exact_mod_cast Int.natCast_dvd_natCast

/-! ## Draws in a row -/

/-- What comes of drawing `n` times in a row. -/
def draws {α : Type} (draw : Generator → α × Generator) : (n : ℕ) → Generator → List α
  | 0, _ => []
  | n + 1, g => (draw g).1 :: draws draw n (draw g).2

theorem forall_mem_draws {α : Type} {draw : Generator → α × Generator} {p : α → Prop}
    (h : ∀ g, p (draw g).1) (n : ℕ) (g : Generator) : ∀ a ∈ draws draw n g, p a := by
  induction n generalizing g with
  | zero => simp [draws]
  | succ n ih => exact List.forall_mem_cons.mpr ⟨h g, ih _⟩

theorem next_fst (g : Generator) : g.next.1 = nextWord g.state.toUInt32 := by
  simp only [next, toUInt32_nextState]

theorem next_snd (g : Generator) : g.next.2.state.toUInt32 = nextWord g.state.toUInt32 := by
  simp only [next, toUInt32_nextState]

theorem draws_next (n : ℕ) (g : Generator) :
    draws next n g = (List.range n).map fun i => nextWord^[i] (nextWord g.state.toUInt32) := by
  induction n generalizing g with
  | zero => rfl
  | succ n ih =>
    rw [draws, ih, next_fst, next_snd, List.range_succ_eq_map, List.map_cons, List.map_map]
    refine congrArg _ (List.map_congr_left fun i _ => ?_)
    exact (Function.iterate_succ_apply nextWord i _).symm

theorem draws_below (bound n : ℕ) (g : Generator) :
    draws (below · bound) n g =
      (draws next n g).map fun word => word.toNat * bound / 2 ^ 32 := by
  induction n generalizing g with
  | zero => rfl
  | succ n ih =>
    rw [draws, draws, List.map_cons, ← Nat.shiftRight_eq_div_pow, ← ih]
    rfl

/-- Every word once, in ascending order. -/
def words : List UInt32 :=
  (List.range (2 ^ 32)).map .ofNat

theorem mem_words (word : UInt32) : word ∈ words := by
  rw [words, List.mem_map]
  exact ⟨word.toNat, List.mem_range.mpr word.toNat_lt, UInt32.ofNat_toNat⟩

theorem nodup_draws_next (g : Generator) : (draws next (2 ^ 32) g).Nodup := by
  rw [draws_next]
  set first := nextWord g.state.toUInt32
  refine List.Nodup.map_on ?_ List.nodup_range
  -- Equal words are a multiple of the period apart, but the draws are fewer than that.
  have hlt : ∀ i j : ℕ, i ≤ j → j < 2 ^ 32 →
      nextWord^[i] first = nextWord^[j] first → i = j := by
    intro i j hij hj heq
    rw [← Nat.sub_add_cancel hij, Function.iterate_add_apply] at heq
    have hdvd := (iterate_nextWord_eq_iff _ _).mp heq.symm
    have hzero := Nat.eq_zero_of_dvd_of_lt hdvd (by omega)
    omega
  intro i hi j hj heq
  rw [List.mem_range] at hi hj
  rcases Nat.le_total i j with hle | hle
  · exact hlt i j hle hj heq
  · exact (hlt j i hle hi heq.symm).symm

theorem perm_words (g : Generator) : (draws next (2 ^ 32) g).Perm words := by
  refine (List.subperm_of_subset (nodup_draws_next g) fun word _ => mem_words word
    ).perm_of_length_le ?_
  rw [draws_next, words, List.length_map, List.length_map]

/-! ## Bounded draws -/

theorem below_lt (g : Generator) (bound : Nat) (h : 0 < bound) :
    (g.below bound).1 < bound := by
  change (g.next.1.toNat * bound) >>> 32 < bound
  rw [Nat.shiftRight_eq_div_pow]
  exact Nat.div_lt_of_lt_mul (Nat.mul_lt_mul_of_pos_right g.next.1.toNat_lt h)

/-- The least number that is scaled down to `value` or to more. -/
def leastWord (bound value : ℕ) : ℕ :=
  (value * 2 ^ 32 + bound - 1) / bound

theorem countP_range_interval {low high n : ℕ} (h : high ≤ n) :
    (List.range n).countP (fun i => low ≤ i ∧ i < high) = high - low := by
  change Nat.count (fun i => low ≤ i ∧ i < high) n = _
  have hfilter : {i ∈ Finset.range n | low ≤ i ∧ i < high} = Finset.Ico low high := by
    ext i
    rw [Finset.mem_filter, Finset.mem_range, Finset.mem_Ico]
    omega
  rw [Nat.count_eq_card_filter_range, hfilter, Nat.card_Ico]

section Scale

variable {bound : ℕ} (hbound : 0 < bound)
include hbound

theorem leastWord_le_iff (value word : ℕ) :
    leastWord bound value ≤ word ↔ value ≤ word * bound / 2 ^ 32 := by
  rw [leastWord, Nat.le_div_iff_mul_le (Nat.two_pow_pos 32), ← Nat.lt_add_one_iff,
    Nat.div_lt_iff_lt_mul hbound, add_one_mul]
  omega

theorem leastWord_bound : leastWord bound bound = 2 ^ 32 := by
  apply le_antisymm
  · rw [leastWord_le_iff hbound, mul_comm, Nat.mul_div_cancel _ (Nat.two_pow_pos 32)]
  · have h := (leastWord_le_iff hbound bound _).mp le_rfl
    rw [Nat.le_div_iff_mul_le (Nat.two_pow_pos 32), mul_comm] at h
    exact Nat.le_of_mul_le_mul_right h hbound

theorem leastWord_mono {value value' : ℕ} (h : value ≤ value') :
    leastWord bound value ≤ leastWord bound value' := by
  rw [leastWord_le_iff hbound]
  exact h.trans ((leastWord_le_iff hbound value' _).mp le_rfl)

/-- As many words go to one value as to any other, or one more. -/
theorem leastWord_succ_sub (value : ℕ) :
    leastWord bound (value + 1) - leastWord bound value = 2 ^ 32 / bound ∨
      leastWord bound (value + 1) - leastWord bound value = (2 ^ 32 + bound - 1) / bound := by
  have hsucc : (value + 1) * 2 ^ 32 + bound - 1 = value * 2 ^ 32 + bound - 1 + 2 ^ 32 := by omega
  have hmod := Nat.mod_lt (value * 2 ^ 32 + bound - 1) hbound
  have hpred : bound - 1 < bound := Nat.sub_lt hbound Nat.one_pos
  have hceil : (2 ^ 32 + bound - 1) / bound =
      2 ^ 32 / bound + if bound ≤ 2 ^ 32 % bound + (bound - 1) then 1 else 0 := by
    rw [Nat.add_sub_assoc hbound, Nat.add_div hbound, Nat.div_eq_of_lt hpred,
      Nat.mod_eq_of_lt hpred, add_zero]
  rw [leastWord, leastWord, hsucc, Nat.add_div hbound (b := 2 ^ 32), hceil, add_assoc,
    Nat.add_sub_cancel_left]
  generalize 2 ^ 32 / bound = quotient
  split_ifs
  · exact Or.inr rfl
  · omega
  · exact Or.inl rfl
  · exact Or.inl rfl

/-- The words that go to a value are those of an interval. -/
theorem count_scale {value : ℕ} (hvalue : value < bound) :
    (words.map fun word => word.toNat * bound / 2 ^ 32).count value =
      leastWord bound (value + 1) - leastWord bound value := by
  have hend : leastWord bound (value + 1) ≤ 2 ^ 32 := by
    rw [← leastWord_bound hbound]
    exact leastWord_mono hbound hvalue
  rw [List.count, words, List.countP_map, List.countP_map, ← countP_range_interval hend]
  apply List.countP_congr
  intro word hword
  have hlow := leastWord_le_iff hbound value word
  have hhigh := leastWord_le_iff hbound (value + 1) word
  rw [Function.comp_apply, Function.comp_apply, beq_iff_eq, decide_eq_true_eq,
    UInt32.toNat_ofNat_of_lt' (List.mem_range.mp hword)]
  omega

end Scale

/-- From any state the generator draws every word before one comes again, and no more than the lower
half of the state matters to what it draws.  The state of a fresh generator is its seed. -/
structure FullPeriod (g : Generator) : Prop where
  permutation : (draws next (2 ^ 32) g).Perm words
  repeats : ∀ n, draws next (2 ^ 32 + n) g = draws next (2 ^ 32) g ++ draws next n g
  lowerHalf : ∀ g' : Generator, g'.state.toNat % 2 ^ 32 = g.state.toNat % 2 ^ 32 →
    ∀ n, draws next n g' = draws next n g
  below_lt : ∀ bound, 0 < bound → ∀ value ∈ draws (below · bound) (2 ^ 32) g, value < bound
  below_uniform : ∀ bound, 0 < bound → ∀ value < bound,
    (draws (below · bound) (2 ^ 32) g).count value = 2 ^ 32 / bound ∨
      (draws (below · bound) (2 ^ 32) g).count value = (2 ^ 32 + bound - 1) / bound

theorem fullPeriod (g : Generator) : FullPeriod g where
  permutation := perm_words g
  repeats n := by
    simp only [draws_next, List.range_add, List.map_append, List.map_map]
    congr 1
    apply List.map_congr_left
    intro i _
    rw [Function.comp_apply, add_comm, Function.iterate_add_apply,
      (iterate_nextWord_eq_iff _ _).mpr dvd_rfl]
  lowerHalf g' h n := by
    have hstate : g'.state.toUInt32 = g.state.toUInt32 := by
      apply UInt32.toNat_inj.mp
      rw [UInt64.toNat_toUInt32, UInt64.toNat_toUInt32, h]
    rw [draws_next, draws_next, hstate]
  below_lt bound hbound := forall_mem_draws (fun g' => g'.below_lt bound hbound) _ g
  below_uniform bound hbound value hvalue := by
    rw [draws_below, ((perm_words g).map _).count_eq, count_scale hbound hvalue]
    exact leastWord_succ_sub hbound value

/-- A die that is thrown `2 ^ 32` times in a row. -/
theorem fullPeriod_die : ∀ face < 6,
    (draws (below · 6) (2 ^ 32) (ofSeed 42)).count face = 715827882 ∨
      (draws (below · 6) (2 ^ 32) (ofSeed 42)).count face = 715827883 :=
  (fullPeriod (ofSeed 42)).below_uniform 6 (by decide)

end Generator
end SpriteField
