import SpriteField.Proofs.Hex
import SpriteField.Proofs.TagSet
import Mathlib.Data.Nat.BitIndices
import Mathlib.Data.Nat.Bitwise
import Mathlib.Data.Nat.Digits.Lemmas

/-!
# Tag sets as numbers

The words of a set, the least significant one first, are the digits of one number, and the tags are
the positions of its bits.  Whatever a set tells about itself can be read off this number.

The positions within one word can also be had by taking the lowest bit away until none is left, and
their count by counting the ones of the word.
-/

namespace SpriteField
namespace TagSet

/-! ## The bits of a word -/

theorem toNat_mask (tag : Nat) : (mask tag).toNat = 2 ^ (tag % 64) := by
  have hbit : tag % 64 < 64 := Nat.mod_lt _ (by decide)
  have hpow : 2 ^ (tag % 64) < 2 ^ 64 := Nat.pow_lt_pow_right (by decide) hbit
  have hshift : (UInt64.ofNat (tag % 64)).toNat % 64 = tag % 64 := by
    rw [UInt64.toNat_ofNat']
    omega
  rw [mask, UInt64.toNat_shiftLeft, hshift, UInt64.toNat_one, Nat.one_shiftLeft,
    Nat.mod_eq_of_lt hpow]

theorem and_mask_ne_zero_iff (word : UInt64) (tag : Nat) :
    word &&& mask tag ≠ 0 ↔ word.toNat.testBit (tag % 64) = true := by
  rw [ne_eq, ← UInt64.toNat_inj, UInt64.toNat_and, toNat_mask, Nat.and_two_pow]
  cases word.toNat.testBit (tag % 64) <;> simp

theorem lt_of_testBit {word : UInt64} {bit : Nat} (h : word.toNat.testBit bit = true) :
    bit < 64 :=
  (Nat.pow_lt_pow_iff_right (by decide)).mp ((Nat.ge_two_pow_of_testBit h).trans_lt word.toNat_lt)

theorem bits_eq_bitIndices (word : UInt64) : bits word = word.toNat.bitIndices := by
  refine (pairwise_bits word).sortedLT.eq_of_mem_iff Nat.bitIndices_sorted fun bit => ?_
  rw [mem_bits, Nat.mem_bitIndices, and_mask_ne_zero_iff]
  constructor
  · rintro ⟨hbit, hset⟩
    rwa [Nat.mod_eq_of_lt hbit] at hset
  · intro hset
    have hbit := lt_of_testBit hset
    rw [Nat.mod_eq_of_lt hbit]
    exact ⟨hbit, hset⟩

/-- The position of the lowest bit set in a word. -/
def lowestBit (word : UInt64) : Nat :=
  word.toBitVec.ctz.toNat

/-- The word without its lowest bit. -/
def clearLowest (word : UInt64) : UInt64 :=
  word &&& (word - 1)

def ones (word : UInt64) : Nat :=
  word.toBitVec.cpop.toNat

theorem toNat_ne_zero {word : UInt64} (h : word ≠ 0) : word.toNat ≠ 0 :=
  fun hzero => h (UInt64.toNat_inj.mp hzero)

theorem toNat_sub_one {word : UInt64} (h : word ≠ 0) : (word - 1).toNat = word.toNat - 1 := by
  have hpos := toNat_ne_zero h
  rw [UInt64.toNat_sub_of_le _ _ (UInt64.le_iff_toNat_le.mpr (by simp; omega)), UInt64.toNat_one]

theorem toNat_clearLowest_lt {word : UInt64} (h : word ≠ 0) :
    (clearLowest word).toNat < word.toNat := by
  have hpos := toNat_ne_zero h
  have hle : (clearLowest word).toNat ≤ (word - 1).toNat := by
    rw [clearLowest, UInt64.toNat_and]
    exact Nat.and_le_right
  rw [toNat_sub_one h] at hle
  omega

/-- The positions of the bits of a word, the lowest one taken away again and again. -/
def lowestFirst (word : UInt64) : List Nat :=
  if word = 0 then [] else lowestBit word :: lowestFirst (clearLowest word)
termination_by word.toNat
decreasing_by exact toNat_clearLowest_lt ‹_›

/-- A word other than zero ends in a one and as many zeros behind it as its lowest bit says. -/
theorem exists_toNat_eq {word : UInt64} (h : word ≠ 0) :
    ∃ rest, word.toNat = 2 ^ lowestBit word * (2 * rest + 1) := by
  obtain ⟨k, m, ⟨rest, rfl⟩, hword⟩ := Nat.exists_eq_two_pow_mul_odd (toNat_ne_zero h)
  have htest : ∀ i, word.toBitVec.getLsbD i =
      (decide (k ≤ i) && (2 * rest + 1).testBit (i - k)) := by
    intro i
    rw [BitVec.getLsbD, UInt64.toNat_toBitVec, hword, Nat.testBit_two_pow_mul]
  have hne : word.toBitVec ≠ 0#64 := fun hzero => h (UInt64.toBitVec_inj.mp hzero)
  have hlowest : lowestBit word = k := by
    have hset := BitVec.getLsbD_true_ctz_of_ne_zero hne
    rw [htest] at hset
    have hle : k ≤ lowestBit word := by
      simp only [Bool.and_eq_true, decide_eq_true_eq] at hset
      exact hset.1
    refine Nat.le_antisymm (Nat.le_of_not_lt fun hlt => ?_) hle
    have hclear := BitVec.getLsbD_false_of_lt_ctz hlt
    rw [htest] at hclear
    simp at hclear
  rw [hlowest]
  exact ⟨rest, hword⟩

theorem toNat_clearLowest {word : UInt64} {k rest : Nat}
    (h : word.toNat = 2 ^ k * (2 * rest + 1)) :
    (clearLowest word).toNat = 2 ^ (k + 1) * rest := by
  have hpos : 0 < 2 ^ k := Nat.two_pow_pos k
  have hne : word ≠ 0 := by
    rintro rfl
    simp at h
  have hlow : 2 ^ k - 1 < 2 ^ (k + 1) := by
    rw [pow_succ]
    omega
  have hword : word.toNat = 2 ^ (k + 1) * rest + 2 ^ k := by
    rw [h, pow_succ]
    ring
  have hpred : word.toNat - 1 = 2 ^ (k + 1) * rest + (2 ^ k - 1) := by
    omega
  rw [clearLowest, UInt64.toNat_and, toNat_sub_one hne, hpred, hword]
  apply Nat.eq_of_testBit_eq
  intro i
  rw [Nat.testBit_and, Nat.testBit_two_pow_mul_add _ hlow,
    Nat.testBit_two_pow_mul_add _ (Nat.pow_lt_pow_right (by decide) (Nat.lt_succ_self k)),
    Nat.testBit_two_pow_mul]
  by_cases hi : i < k + 1
  · rw [if_pos hi, if_pos hi, Nat.testBit_two_pow, Nat.testBit_two_pow_sub_one,
      decide_eq_false (by omega : ¬k + 1 ≤ i), Bool.false_and, ← Bool.decide_and,
      decide_eq_false (by omega)]
  · rw [if_neg hi, if_neg hi, Bool.and_self, decide_eq_true (by omega : k + 1 ≤ i),
      Bool.true_and]

/-- Taking the lowest bit away until none is left lists the bits in ascending order. -/
theorem lowestFirst_eq (word : UInt64) : lowestFirst word = bits word := by
  rw [bits_eq_bitIndices]
  induction hn : word.toNat using Nat.strongRecOn generalizing word with
  | ind n ih =>
    rw [lowestFirst]
    split
    next h =>
      subst h
      simp [← hn]
    next h =>
      obtain ⟨rest, hword⟩ := exists_toNat_eq h
      have hclear := toNat_clearLowest hword
      rw [ih _ (hn ▸ toNat_clearLowest_lt h) _ rfl, hclear, ← hn, hword,
        Nat.bitIndices_two_pow_mul, Nat.bitIndices_two_pow_mul, Nat.bitIndices_two_mul_add_one,
        List.map_cons, List.map_map, Nat.zero_add]
      congr 2
      funext i
      simp
      omega

theorem cpopNatRec_eq_countP (x : BitVec w) (n : Nat) :
    x.cpopNatRec n 0 = (List.range n).countP x.getLsbD := by
  induction n with
  | zero => rfl
  | succ n ih =>
    rw [BitVec.cpopNatRec_succ, BitVec.cpopNatRec_add, ih, List.range_succ, List.countP_append,
      List.countP_singleton]
    cases x.getLsbD n <;> rfl

/-- There are as many positions as there are ones. -/
theorem ones_eq_length_bits (word : UInt64) : ones word = (bits word).length := by
  have hfilter : bits word = (List.range 64).filter word.toBitVec.getLsbD := by
    refine (pairwise_bits word).eq_of_mem_iff (List.pairwise_lt_range.filter _) fun bit => ?_
    rw [mem_bits, List.mem_filter, List.mem_range, and_mask_ne_zero_iff]
    refine and_congr_right fun hbit => ?_
    rw [Nat.mod_eq_of_lt hbit]
    rfl
  rw [ones, BitVec.toNat_cpop, cpopNatRec_eq_countP, List.countP_eq_length_filter, hfilter]

/-! ## The number of a set -/

def number (s : TagSet) : Nat :=
  Nat.ofDigits (2 ^ 64) (s.words.toList.map UInt64.toNat)

theorem length_words (s : TagSet) : s.words.toList.length = 4 :=
  s.words.size_toArray

theorem getD_words (s : TagSet) (i : Nat) : s.words.toList.getD i 0 = s.word i := by
  rw [word, List.getD_eq_getElem?_getD, Array.getD_eq_getD_getElem?, ← Array.getElem?_toList]
  rfl

theorem map_word (s : TagSet) : (List.range 4).map s.word = s.words.toList := by
  apply List.ext_getElem (by rw [List.length_map, List.length_range, length_words])
  intro i _ hi
  rw [List.getElem_map, List.getElem_range, ← getD_words, List.getD_eq_getElem _ _ hi]

theorem lt_of_mem_words {s : TagSet} :
    ∀ digit ∈ s.words.toList.map UInt64.toNat, digit < 2 ^ 64 := by
  intro digit hdigit
  obtain ⟨word, -, rfl⟩ := List.mem_map.mp hdigit
  exact word.toNat_lt

theorem testBit_ofDigits (words : List UInt64) (tag : Nat) :
    (Nat.ofDigits (2 ^ 64) (words.map UInt64.toNat)).testBit tag =
      (words.getD (tag / 64) 0).toNat.testBit (tag % 64) := by
  induction words generalizing tag with
  | nil => simp
  | cons word words ih =>
    rw [List.map_cons, Nat.ofDigits_cons, Nat.add_comm,
      Nat.testBit_two_pow_mul_add _ word.toNat_lt]
    split
    next h =>
      rw [Nat.div_eq_of_lt h, Nat.mod_eq_of_lt h]
      rfl
    next h =>
      have hdiv : tag / 64 = (tag - 64) / 64 + 1 := by omega
      have hmod : tag % 64 = (tag - 64) % 64 := by omega
      rw [ih, hdiv, hmod, List.getD_cons_succ]

theorem testBit_number (s : TagSet) (tag : Nat) : s.number.testBit tag = s.contains tag := by
  rw [number, testBit_ofDigits, getD_words, Bool.eq_iff_iff, ← and_mask_ne_zero_iff, contains,
    bne_iff_ne]

theorem toList_eq_bitIndices (s : TagSet) : s.toList = s.number.bitIndices := by
  refine (pairwise_toList s).sortedLT.eq_of_mem_iff Nat.bitIndices_sorted fun tag => ?_
  rw [mem_toList, Nat.mem_bitIndices, testBit_number]

theorem number_lt (s : TagSet) : s.number < 16 ^ 64 := by
  have hlt := Nat.ofDigits_lt_base_pow_length (by decide) s.lt_of_mem_words
  rw [List.length_map, length_words] at hlt
  exact hlt.trans_eq (by norm_num)

theorem number_injective : Function.Injective number := by
  intro s s' h
  have hlength : (s.words.toList.map UInt64.toNat).length =
      (s'.words.toList.map UInt64.toNat).length := by
    rw [List.length_map, List.length_map, length_words, length_words]
  have hwords := List.map_injective_iff.mpr (fun _ _ => UInt64.toNat_inj.mp)
    (Nat.ofDigits_inj_of_len_eq (by decide) hlength lt_of_mem_words lt_of_mem_words h)
  have hwords := Vector.toList_inj.mp hwords
  cases s
  cases s'
  rw [mk.injEq]
  exact hwords

theorem join_hexText (words : List UInt64) :
    String.join (words.reverse.map fun word => hexText 16 word.toNat) =
      hexText (16 * words.length) (Nat.ofDigits (2 ^ 64) (words.map UInt64.toNat)) := by
  induction words with
  | nil => rfl
  | cons word words ih =>
    have hword : word.toNat < 16 ^ 16 := word.toNat_lt
    have hdigits := hexDigits_add (16 * words.length)
      (Nat.ofDigits (2 ^ 64) (words.map UInt64.toNat)) hword
    have hbase : 2 ^ 64 = 16 ^ 16 := by norm_num
    rw [List.reverse_cons, List.map_append, String.join_append, ih, List.map_cons, List.map_cons,
      Nat.ofDigits_cons, List.length_cons, Nat.mul_succ, Nat.add_comm word.toNat,
      Nat.mul_comm (2 ^ 64)]
    simp only [hexText, hbase] at hdigits ⊢
    rw [hdigits]
    simp

/-- The text of a set is its number in sixty-four hexadecimal digits. -/
theorem text_eq (s : TagSet) : s.text = "0x" ++ hexText 64 s.number := by
  rw [text, join_hexText, length_words]
  rfl

theorem text_injective : Function.Injective text := by
  intro s s' h
  rw [text_eq, text_eq, hexText, hexText, ← String.toList_inj] at h
  simp only [String.toList_append, String.toList_ofList] at h
  have hdigits := List.append_cancel_left h
  have hnumber := congrArg hexNumber? hdigits
  rw [hexNumber?_hexDigits, hexNumber?_hexDigits, Nat.mod_eq_of_lt s.number_lt,
    Nat.mod_eq_of_lt s'.number_lt] at hnumber
  exact number_injective (Option.some.inj hnumber)

theorem size_eq_length_toList (s : TagSet) : s.size = s.toList.length := by
  rw [size, ← List.sum_eq_foldl, ← map_word, List.map_map, toList, List.length_flatMap]
  simp only [List.length_map]
  rfl

theorem isEmpty_iff (s : TagSet) : s.isEmpty = true ↔ s.number = 0 := by
  have hzero : empty.number = 0 := by decide
  rw [← hzero, number_injective.eq_iff, isEmpty, Vector.all_eq_true]
  constructor
  · intro h
    cases s
    rw [empty, mk.injEq]
    apply Vector.ext
    intro i hi
    rw [Vector.getElem_replicate]
    exact eq_of_beq (h i hi)
  · rintro rfl i hi
    simp [empty]

theorem contains_iff_testBit_word (s : TagSet) (i : Nat) {bit : Nat} (h : bit < 64) :
    s.contains (i * 64 + bit) = true ↔ (s.word i).toNat.testBit bit = true := by
  have hdiv : (i * 64 + bit) / 64 = i := by omega
  have hmod : bit % 64 = bit := Nat.mod_eq_of_lt h
  rw [contains, bne_iff_ne, hdiv, mask_add_mul, and_mask_ne_zero_iff, hmod]

/-- A set contains all tags of another one if no word of the other has a bit that is not its own. -/
theorem containsAll_iff (s required : TagSet) :
    s.containsAll required = true ↔
      ∀ tag, required.contains tag = true → s.contains tag = true := by
  refine ⟨fun h tag => contains_of_containsAll h, fun h => ?_⟩
  rw [containsAll, Vector.all_eq_true]
  intro i hi
  rw [Vector.getElem_zip, beq_iff_eq, ← word_eq_getElem s hi, ← word_eq_getElem required hi,
    ← UInt64.toNat_inj, UInt64.toNat_and]
  apply Nat.eq_of_testBit_eq
  intro bit
  rw [Nat.testBit_and, Bool.and_eq_right_iff_imp]
  intro hset
  have hbit := lt_of_testBit hset
  exact (s.contains_iff_testBit_word i hbit).mp
    (h _ ((required.contains_iff_testBit_word i hbit).mpr hset))

end TagSet
end SpriteField
