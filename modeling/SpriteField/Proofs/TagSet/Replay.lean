import SpriteField.Proofs.TagSet.Number
import Mathlib.Combinatorics.Colex

/-!
# Tag sets as finite sets

Tags that are turned on and off one after the other leave what the same calls make of a plain set of
numbers.  Whatever a tag set is asked, it answers as that set would: by its words, its list, its
size, its number and its text.
-/

namespace SpriteField
namespace TagSet

/-! ## Turning a tag on or off -/

theorem set_of_le {tag : Nat} (h : tagCount ≤ tag) (s : TagSet) (on : Bool) :
    s.set tag on = s := by
  have hsize : 4 ≤ tag / 64 := by
    rw [tagCount] at h
    omega
  rw [set, Vector.setIfInBounds_eq_of_size_le hsize]

theorem word_set {tag : Nat} (h : tag < tagCount) (s : TagSet) (on : Bool) (i : Nat) :
    (s.set tag on).word i =
      if i = tag / 64 then
        if on then s.word i ||| mask tag else s.word i &&& ~~~mask tag
      else s.word i := by
  have hsize : tag / 64 < 4 := by
    rw [tagCount] at h
    omega
  rw [word, set, Vector.toArray_setIfInBounds, Array.getD_eq_getD_getElem?,
    Array.getElem?_setIfInBounds, s.words.size_toArray, if_pos hsize]
  by_cases hi : tag / 64 = i
  · rw [if_pos hi, if_pos hi.symm, Option.getD_some, hi]
  · rw [if_neg hi, if_neg (Ne.symm hi), word, Array.getD_eq_getD_getElem?]

theorem testBit_or_mask (word : UInt64) (tag bit : Nat) :
    (word ||| mask tag).toNat.testBit bit =
      (word.toNat.testBit bit || decide (tag % 64 = bit)) := by
  rw [UInt64.toNat_or, Nat.testBit_or, toNat_mask, Nat.testBit_two_pow]

theorem testBit_and_not_mask (word : UInt64) (tag : Nat) {bit : Nat} (h : bit < 64) :
    (word &&& ~~~mask tag).toNat.testBit bit =
      (word.toNat.testBit bit && !decide (tag % 64 = bit)) := by
  have hmask : (mask tag).toNat < 2 ^ 64 := (mask tag).toNat_lt
  have hnot : (~~~mask tag).toNat = 2 ^ 64 - ((mask tag).toNat + 1) := by
    rw [UInt64.toNat_not, UInt64.size]
    omega
  rw [UInt64.toNat_and, Nat.testBit_and, hnot, Nat.testBit_two_pow_sub_succ hmask,
    decide_eq_true h, Bool.true_and, toNat_mask, Nat.testBit_two_pow]

theorem contains_set {tag : Nat} (h : tag < tagCount) (s : TagSet) (on : Bool) (other : Nat) :
    (s.set tag on).contains other = if other = tag then on else s.contains other := by
  have hbit : other % 64 < 64 := Nat.mod_lt _ (by decide)
  rw [← testBit_number, ← testBit_number, number, number, testBit_ofDigits, testBit_ofDigits,
    getD_words, getD_words, word_set h]
  by_cases hword : other / 64 = tag / 64
  · have heq : tag % 64 = other % 64 ↔ other = tag := by omega
    rw [if_pos hword]
    cases on with
    | true =>
      rw [if_pos rfl, testBit_or_mask]
      by_cases htag : other = tag <;> simp [heq, htag]
    | false =>
      rw [if_neg Bool.false_ne_true, testBit_and_not_mask _ _ hbit]
      by_cases htag : other = tag <;> simp [heq, htag]
  · have hne : other ≠ tag := fun heq => hword (by rw [heq])
    rw [if_neg hword, if_neg hne]

/-! ## Calls and what they make of a plain set -/

structure Call where
  tag : Nat
  on : Bool

/-- The set after a call, whether or not it was refused. -/
def after (s : TagSet) (call : Call) : TagSet :=
  match s.set? call.tag call.on with
  | .ok s' => s'
  | .error _ => s

def run (s : TagSet) (calls : List Call) : TagSet :=
  calls.foldl after s

/-- What a call makes of a plain set.  Only tags are put in. -/
def Call.applyTo (call : Call) (tags : Finset Nat) : Finset Nat :=
  if tagCount ≤ call.tag then tags
  else if call.on then insert call.tag tags
  else tags.erase call.tag

def replay (calls : List Call) : Finset Nat :=
  calls.foldl (fun tags call => call.applyTo tags) ∅

/-- The tag set has the elements of the plain set. -/
def Holds (s : TagSet) (tags : Finset Nat) : Prop :=
  ∀ tag, s.contains tag = true ↔ tag ∈ tags

theorem set?_of_lt {tag : Nat} (h : tag < tagCount) (s : TagSet) (on : Bool) :
    s.set? tag on = .ok (s.set tag on) :=
  if_pos h

theorem set?_of_le {tag : Nat} (h : tagCount ≤ tag) (s : TagSet) (on : Bool) :
    s.set? tag on = .error (.tagOutOfRange tag) :=
  if_neg (Nat.not_lt.mpr h)

theorem after_eq_set (s : TagSet) (call : Call) : s.after call = s.set call.tag call.on := by
  rcases Nat.lt_or_ge call.tag tagCount with h | h
  · rw [after, set?_of_lt h]
  · rw [after, set?_of_le h, set_of_le h]

theorem holds_empty : Holds empty ∅ := by
  intro tag
  have hzero : empty.number = 0 := by decide
  rw [← testBit_number, hzero, Nat.zero_testBit]
  simp

theorem Holds.after {s : TagSet} {tags : Finset Nat} (h : Holds s tags) (call : Call) :
    Holds (s.after call) (call.applyTo tags) := by
  rw [after_eq_set]
  intro other
  rw [Call.applyTo]
  split
  next hrange => rw [set_of_le hrange, h]
  next hrange =>
    rw [contains_set (Nat.lt_of_not_le hrange)]
    by_cases htag : other = call.tag
    · subst htag
      cases call.on <;> simp
    · cases call.on <;> simp [htag, h other]

theorem Holds.run {s : TagSet} {tags : Finset Nat} (h : Holds s tags) (calls : List Call) :
    Holds (s.run calls) (calls.foldl (fun tags call => call.applyTo tags) tags) := by
  induction calls generalizing s tags with
  | nil => exact h
  | cons call calls ih => exact ih (h.after call)

theorem holds_run (calls : List Call) : Holds (empty.run calls) (replay calls) :=
  holds_empty.run calls

theorem ofList_eq_run (tags : List Nat) : ofList tags = empty.run (tags.map (⟨·, true⟩)) := by
  rw [ofList, TagSet.run, List.foldl_map]
  simp only [after_eq_set]

theorem mem_foldl_applyTo (numbers : List Nat) (tags : Finset Nat) (tag : Nat) :
    tag ∈ (numbers.map (⟨·, true⟩)).foldl (fun tags (call : Call) => call.applyTo tags) tags ↔
      tag ∈ tags ∨ tag < tagCount ∧ tag ∈ numbers := by
  induction numbers generalizing tags with
  | nil => simp
  | cons number numbers ih =>
    rw [List.map_cons, List.foldl_cons, ih, Call.applyTo, List.mem_cons]
    by_cases hrange : tagCount ≤ number
    · rw [if_pos hrange]
      have hne : tag < tagCount → tag ≠ number := by omega
      tauto
    · rw [if_neg hrange, if_pos rfl, Finset.mem_insert]
      have hlt : tag = number → tag < tagCount := by omega
      tauto

theorem holds_ofList (numbers : List Nat) :
    Holds (ofList numbers) (numbers.filter (· < tagCount)).toFinset := by
  intro tag
  rw [ofList_eq_run, holds_run, replay, mem_foldl_applyTo, List.mem_toFinset, List.mem_filter]
  simp [and_comm]

/-! ## The answers of a set -/

/-- Whatever the tag set is asked, it answers as the plain set would. -/
structure Faithful (s : TagSet) (tags : Finset Nat) : Prop where
  contains_iff : ∀ tag, s.contains tag = true ↔ tag ∈ tags
  ascending : s.toList.Pairwise (· < ·)
  mem_toList_iff : ∀ tag, tag ∈ s.toList ↔ tag ∈ tags
  /-- Taking the lowest bit of each word away until none is left gives the same list. -/
  walked : ((List.range 4).flatMap fun i => (lowestFirst (s.word i)).map (i * 64 + ·)) = s.toList
  size_eq : s.size = tags.card
  /-- Counting the ones of each word gives the same size. -/
  counted : (s.words.toList.map ones).sum = s.size
  isEmpty_iff : s.isEmpty = true ↔ tags = ∅
  text_eq : ∃ digits, s.text = "0x" ++ String.ofList digits ∧ digits.length = 64 ∧
    hexNumber? digits = some (∑ tag ∈ tags, 2 ^ tag)

/-- The tag sets compare as the plain sets do, and different ones have different texts. -/
structure Compares (s s' : TagSet) (tags tags' : Finset Nat) : Prop where
  containsAll_iff : s.containsAll s' = true ↔ tags' ⊆ tags
  mutual_iff : s.containsAll s' = true ∧ s'.containsAll s = true ↔ s = s'
  text_eq_iff : s.text = s'.text ↔ s = s'

namespace Holds

variable {s s' : TagSet} {tags tags' : Finset Nat}

theorem toFinset_toList (h : Holds s tags) : s.toList.toFinset = tags := by
  ext tag
  rw [List.mem_toFinset, mem_toList, h]

theorem number_eq (h : Holds s tags) : s.number = ∑ tag ∈ tags, 2 ^ tag := by
  rw [← h.toFinset_toList, toList_eq_bitIndices, Finset.sum_toFinset_bitIndices_two_pow]

theorem eq_iff (h : Holds s tags) (h' : Holds s' tags') : s = s' ↔ tags = tags' := by
  constructor
  · rintro rfl
    rw [← h.toFinset_toList, h'.toFinset_toList]
  · rintro rfl
    exact number_injective (h.number_eq.trans h'.number_eq.symm)

theorem hexNumber?_eq (h : Holds s tags) :
    hexNumber? (hexDigits 64 s.number) = some (∑ tag ∈ tags, 2 ^ tag) := by
  rw [hexNumber?_hexDigits, Nat.mod_eq_of_lt s.number_lt, h.number_eq]

theorem faithful (h : Holds s tags) : Faithful s tags := by
  constructor
  · exact h
  · exact pairwise_toList s
  · intro tag
    rw [mem_toList, h]
  · rw [toList]
    simp only [lowestFirst_eq]
  · rw [size_eq_length_toList, ← h.toFinset_toList, List.toFinset_card_of_nodup (nodup_toList s)]
  · rw [size, ← List.sum_eq_foldl, funext ones_eq_length_bits]
  · rw [isEmpty_iff, h.number_eq, Finset.sum_eq_zero_iff, Finset.eq_empty_iff_forall_notMem]
    simp
  · exact ⟨_, s.text_eq, length_hexDigits _ _, h.hexNumber?_eq⟩

theorem compares (h : Holds s tags) (h' : Holds s' tags') : Compares s s' tags tags' := by
  have hsubset : ∀ {s s' tags tags'}, Holds s tags → Holds s' tags' →
      (s.containsAll s' = true ↔ tags' ⊆ tags) := by
    intro s s' tags tags' h h'
    rw [containsAll_iff]
    exact forall_congr' fun tag => imp_congr (h' tag) (h tag)
  constructor
  · exact hsubset h h'
  · rw [hsubset h h', hsubset h' h, h.eq_iff h', and_comm]
    exact Finset.Subset.antisymm_iff.symm
  · exact text_injective.eq_iff

end Holds

/-- Under any calls that turn tags on and off, the tag set that was empty at first stands for the
plain set under the same calls, it compares to others as that set does, and a number that is no tag
is refused. -/
theorem run_faithful (calls : List Call) :
    Faithful (empty.run calls) (replay calls) ∧
      (∀ others : List Call,
        Compares (empty.run calls) (empty.run others) (replay calls) (replay others)) ∧
      (∀ numbers : List Nat,
        Faithful (ofList numbers) (numbers.filter (· < tagCount)).toFinset) ∧
      ∀ number on, tagCount ≤ number →
        (empty.run calls).set? number on = .error (.tagOutOfRange number) ∧
          (empty.run calls).after ⟨number, on⟩ = empty.run calls := by
  refine ⟨(holds_run calls).faithful, fun others => (holds_run calls).compares (holds_run others),
    fun numbers => (holds_ofList numbers).faithful, fun number on h => ?_⟩
  exact ⟨set?_of_le h _ on, by rw [after_eq_set, set_of_le h]⟩

/-- Tags on both sides of the first two words, the last tag, and a number that is none. -/
theorem faithful_at_word_edges :
    let calls : List Call := [⟨63, true⟩, ⟨64, true⟩, ⟨255, true⟩, ⟨63, false⟩, ⟨256, true⟩]
    Faithful (empty.run calls) {64, 255} ∧ (empty.run calls).toList = [64, 255] ∧
      tagCount ≤ 256 ∧
      (empty.run calls).set? 256 true = .error (.tagOutOfRange 256) ∧
      (empty.run calls).after ⟨256, true⟩ = empty.run calls := by
  intro calls
  obtain ⟨hfaithful, -, -, hrefused⟩ := run_faithful calls
  have hreplay : replay calls = {64, 255} := by decide
  rw [hreplay] at hfaithful
  exact ⟨hfaithful, by decide, by decide, hrefused 256 true (by decide)⟩

end TagSet
end SpriteField
