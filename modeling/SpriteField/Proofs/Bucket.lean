import SpriteField.Bucket
import Mathlib.Tactic
import Mathlib.Data.List.Perm.Basic

/-!
# Removal by moving the last element

A removal at a position that exists drops the last position and leaves every other position as it
was, except that the gap now holds what was last.  Up to order this is an ordinary removal.
-/

namespace SpriteField

theorem swapPop_eq {items : Array α} {i : Nat} {last : α} (hi : i < items.size)
    (hlast : items.back? = some last) :
    swapPop items i = (items.setIfInBounds i last).pop := by
  rw [swapPop, hlast]
  exact if_pos hi

theorem exists_back?_eq {items : Array α} (h : 0 < items.size) :
    ∃ last, items.back? = some last := by
  cases hback : items.back? with
  | none =>
    rw [Array.back?_eq_none_iff] at hback
    subst hback
    simp at h
  | some last => exact ⟨last, rfl⟩

theorem size_swapPop {items : Array α} {i : Nat} (hi : i < items.size) :
    (swapPop items i).size + 1 = items.size := by
  obtain ⟨last, hlast⟩ := exists_back?_eq (Nat.zero_lt_of_lt hi)
  rw [swapPop_eq hi hlast, Array.size_pop, Array.size_setIfInBounds]
  omega

theorem getElem?_swapPop {items : Array α} {i : Nat} (hi : i < items.size) (j : Nat) :
    (swapPop items i)[j]? =
      if j + 1 < items.size then (if j = i then items.back? else items[j]?) else none := by
  obtain ⟨last, hlast⟩ := exists_back?_eq (Nat.zero_lt_of_lt hi)
  rw [swapPop_eq hi hlast, Array.getElem?_pop, Array.size_setIfInBounds,
    Array.getElem?_setIfInBounds]
  by_cases hj : j + 1 < items.size
  · rw [if_pos (by omega), if_pos hj]
    by_cases heq : j = i
    · rw [if_pos heq.symm, if_pos hi, if_pos heq, hlast]
    · rw [if_neg (Ne.symm heq), if_neg heq]
  · rw [if_neg (by omega), if_neg hj]

theorem mem_of_mem_swapPop {items : Array α} {i : Nat} (hi : i < items.size) {value : α}
    (h : value ∈ swapPop items i) : value ∈ items := by
  obtain ⟨j, hj⟩ := Array.mem_iff_getElem?.mp h
  rw [getElem?_swapPop hi] at hj
  split at hj
  · split at hj
    · exact Array.mem_iff_getElem?.mpr ⟨_, hj⟩
    · exact Array.mem_iff_getElem?.mpr ⟨_, hj⟩
  · simp at hj

theorem swapPop_push (items : Array α) (entry : α) :
    swapPop (items.push entry) items.size = items := by
  apply Array.ext_getElem?
  intro i
  rw [getElem?_swapPop (by simp), Array.size_push, Array.getElem?_push]
  by_cases hi : i < items.size
  · rw [if_pos (by omega), if_neg (by omega), if_neg (by omega)]
  · rw [if_neg (by omega), Array.getElem?_eq_none (by omega)]

theorem toList_swapPop_perm {items : Array α} {i : Nat} (hi : i < items.size) :
    (swapPop items i).toList.Perm (items.toList.eraseIdx i) := by
  obtain ⟨init, last, hitems⟩ : ∃ init last, items.toList = init ++ [last] := by
    have hne : items.toList ≠ [] := by
      intro hnil
      have hlength := congrArg List.length hnil
      simp only [Array.length_toList, List.length_nil] at hlength
      omega
    exact ⟨items.toList.dropLast, items.toList.getLast hne,
      (List.dropLast_append_getLast hne).symm⟩
  have hsize : items.size = init.length + 1 := by
    rw [← Array.length_toList, hitems, List.length_append, List.length_singleton]
  have hback : items.back? = some last := by
    rw [← Array.getLast?_toList, hitems, List.getLast?_concat]
  rw [swapPop_eq hi hback, Array.toList_pop, Array.toList_setIfInBounds, hitems]
  by_cases heq : i = init.length
  · subst heq
    rw [List.set_append_right _ _ (Nat.le_refl _),
      List.eraseIdx_append_of_length_le (Nat.le_refl _)]
    simp
  · have hlt : i < init.length := by omega
    rw [List.set_append_left _ _ hlt, List.dropLast_concat,
      List.eraseIdx_append_of_lt_length hlt]
    have hset : (init.set i last).Perm (last :: init.eraseIdx i) :=
      List.set_perm_cons_eraseIdx hlt last
    exact hset.trans (List.perm_append_singleton _ _).symm

namespace Bucket

variable {b : Bucket α} {i : Nat}

theorem exists_get_eq_ok (hi : i < b.size) : ∃ value, b.get i = .ok value := by
  have hi : i < b.items.size := hi
  exact ⟨b.items[i], by rw [get, Array.getElem?_eq_getElem hi]⟩

theorem moved_of_lt (hi : i + 1 < b.size) {last : α} (hlast : b.items.back? = some last) :
    b.moved i = some (last, ⟨b.size - 1, i⟩) := by
  rw [moved, if_pos hi, hlast]
  rfl

theorem moved_of_last (hi : i + 1 = b.size) : b.moved i = none := by
  rw [moved, if_neg (by omega)]

end Bucket

end SpriteField
