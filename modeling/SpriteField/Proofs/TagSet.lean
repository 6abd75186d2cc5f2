import SpriteField.Error
import Mathlib.Tactic

/-!
# Tags as a set

The list of a tag set is strictly ascending and holds exactly the tags that are in the set.  A set
that contains all tags of another one has each of them.  Setting tags by their numbers is refused
at the first number that is no tag.
-/

namespace SpriteField
namespace TagSet

@[simp] theorem mask_add_mul (i bit : Nat) : mask (i * 64 + bit) = mask bit := by
  have h : (i * 64 + bit) % 64 = bit % 64 := by omega
  rw [mask, mask, h]

theorem mem_bits {word : UInt64} {bit : Nat} :
    bit ∈ bits word ↔ bit < 64 ∧ word &&& mask bit ≠ 0 := by
  unfold bits
  by_cases hword : word = 0
  · subst hword
    simp
  · rw [if_neg (by simpa using hword), List.mem_filter, List.mem_range, bne_iff_ne]

theorem pairwise_bits (word : UInt64) : (bits word).Pairwise (· < ·) := by
  unfold bits
  split
  · exact List.Pairwise.nil
  · exact List.pairwise_lt_range.filter _

theorem word_of_le (s : TagSet) {i : Nat} (h : 4 ≤ i) : s.word i = 0 := by
  have hsize : s.words.toArray.size = 4 := s.words.size_toArray
  rw [word, Array.getD_eq_getD_getElem?, Array.getElem?_eq_none (by omega)]
  rfl

theorem mem_toList (s : TagSet) (tag : Nat) : tag ∈ s.toList ↔ s.contains tag = true := by
  rw [toList, List.mem_flatMap, contains, bne_iff_ne]
  constructor
  · rintro ⟨i, -, hmem⟩
    obtain ⟨bit, hbit, rfl⟩ := List.mem_map.mp hmem
    obtain ⟨hlt, hset⟩ := mem_bits.mp hbit
    have hdiv : (i * 64 + bit) / 64 = i := by omega
    rwa [hdiv, mask_add_mul]
  · intro hset
    have hsplit : tag / 64 * 64 + tag % 64 = tag := Nat.div_add_mod' tag 64
    have hindex : tag / 64 < 4 := by
      by_contra hle
      rw [word_of_le s (Nat.le_of_not_lt hle), UInt64.zero_and] at hset
      exact hset rfl
    refine ⟨tag / 64, List.mem_range.mpr hindex, List.mem_map.mpr ⟨tag % 64, ?_, hsplit⟩⟩
    rw [mem_bits, ← mask_add_mul (tag / 64), hsplit]
    exact ⟨Nat.mod_lt _ (by decide), hset⟩

theorem lt_of_mem_toList {s : TagSet} {tag : Nat} (h : tag ∈ s.toList) : tag < tagCount := by
  rw [toList, List.mem_flatMap] at h
  obtain ⟨i, hi, hmem⟩ := h
  obtain ⟨bit, hbit, rfl⟩ := List.mem_map.mp hmem
  have hi := List.mem_range.mp hi
  have hbit := (mem_bits.mp hbit).1
  simp only [tagCount]
  omega

theorem pairwise_toList (s : TagSet) : s.toList.Pairwise (· < ·) := by
  rw [toList, List.pairwise_flatMap]
  constructor
  · intro i _
    exact (pairwise_bits (s.word i)).map _ fun a b h => Nat.add_lt_add_left h _
  · refine List.pairwise_lt_range.imp ?_
    intro i j hij tag htag tag' htag'
    obtain ⟨bit, hbit, rfl⟩ := List.mem_map.mp htag
    obtain ⟨bit', -, rfl⟩ := List.mem_map.mp htag'
    have hbit := (mem_bits.mp hbit).1
    omega

theorem nodup_toList (s : TagSet) : s.toList.Nodup :=
  (pairwise_toList s).imp Nat.ne_of_lt

@[simp] theorem toList_empty : TagSet.empty.toList = [] := by decide

theorem word_eq_getElem (s : TagSet) {i : Nat} (h : i < 4) : s.word i = s.words[i] := by
  have hsize : i < s.words.toArray.size := by rw [s.words.size_toArray]; exact h
  rw [word, Array.getD_eq_getD_getElem?, Array.getElem?_eq_getElem hsize]
  rfl

theorem word_and_of_containsAll {s required : TagSet} (h : s.containsAll required = true)
    {i : Nat} (hi : i < 4) : s.word i &&& required.word i = required.word i := by
  rw [containsAll, Vector.all_eq_true] at h
  have hword := h i hi
  rw [Vector.getElem_zip] at hword
  rw [word_eq_getElem s hi, word_eq_getElem required hi]
  exact eq_of_beq hword

theorem contains_of_containsAll {s required : TagSet} (h : s.containsAll required = true)
    {tag : Nat} (htag : required.contains tag = true) : s.contains tag = true := by
  have hlt := lt_of_mem_toList ((mem_toList required tag).mpr htag)
  have hword := word_and_of_containsAll h (i := tag / 64) (by simp only [tagCount] at hlt; omega)
  rw [contains, bne_iff_ne] at htag ⊢
  intro hzero
  apply htag
  calc
    required.word (tag / 64) &&& mask tag =
        s.word (tag / 64) &&& required.word (tag / 64) &&& mask tag := by rw [hword]
    _ = required.word (tag / 64) &&& (s.word (tag / 64) &&& mask tag) := by
      rw [UInt64.and_comm (s.word _), UInt64.and_assoc]
    _ = 0 := by rw [hzero, UInt64.and_zero]

theorem foldlM_set?_of_none {tags : List Nat} (h : tags.find? (tagCount ≤ ·) = none)
    (s : TagSet) : tags.foldlM (fun s tag => s.set? tag true) s =
      .ok (tags.foldl (fun s tag => s.set tag true) s) := by
  induction tags generalizing s with
  | nil => rfl
  | cons tag tags ih =>
    rw [List.find?_cons] at h
    split at h
    next => cases h
    next hrange =>
      have htag : s.set? tag true = .ok (s.set tag true) := if_pos (by simpa using hrange)
      rw [List.foldlM_cons, htag]
      exact ih h _

theorem foldlM_set?_of_some {tags : List Nat} {bad : Nat}
    (h : tags.find? (tagCount ≤ ·) = some bad) (s : TagSet) :
    tags.foldlM (fun s tag => s.set? tag true) s = .error (.tagOutOfRange bad) := by
  induction tags generalizing s with
  | nil => cases h
  | cons tag tags ih =>
    rw [List.find?_cons] at h
    split at h
    next hrange =>
      have htag : s.set? tag true = .error (.tagOutOfRange tag) := if_neg (by simpa using hrange)
      rw [List.foldlM_cons, htag, Option.some.inj h]
      rfl
    next hrange =>
      have htag : s.set? tag true = .ok (s.set tag true) := if_pos (by simpa using hrange)
      rw [List.foldlM_cons, htag]
      exact ih h _

end TagSet
end SpriteField
