import SpriteField.Proofs.Generator.Period
import Mathlib.Algebra.Group.End
import Mathlib.Logic.Equiv.Basic

/-!
# Shuffles

A shuffle swaps its places, from the last one down, each with a drawn place that is not above it.
Which places are drawn is a matter of the state and of the number of items, so a shuffle does the same
to any items, whether or not some of them are equal.

A machine draws in words of 32 bits.  It stops where a bound is no word or is zero, and at a place
that the items do not have.  None of this happens as long as a word tells the number of items.
-/

namespace SpriteField
namespace Generator

variable {α : Type*} {g : Generator} {items : Array α} {i : Nat}

/-! ## The order of a shuffle -/

/-- The place that the item of each place comes from when the places `i`, ..., `1` are swapped. -/
def swaps : (i : Nat) → (state : UInt64) → Equiv.Perm Nat
  | 0, _ => 1
  | i + 1, state =>
    Equiv.swap (i + 1) ((ofSeed state).below (i + 2)).1 * swaps i (nextState state)

/-- The order in which a shuffle leaves so many items. -/
def order (state : UInt64) (size : Nat) : Equiv.Perm Nat :=
  swaps (size - 1) state

theorem below_le (g : Generator) (i : Nat) : (g.below (i + 2)).1 ≤ i + 1 :=
  Nat.le_of_lt_succ (g.below_lt (i + 2) (by omega))

theorem swaps_of_lt (state : UInt64) {place : Nat} (h : i < place) :
    swaps i state place = place := by
  induction i generalizing state with
  | zero => rfl
  | succ i ih =>
    have hle := (ofSeed state).below_le i
    rw [swaps, Equiv.Perm.mul_apply, ih _ (by omega)]
    exact Equiv.swap_apply_of_ne_of_ne (by omega) (by omega)

theorem getElem?_swapIfInBounds {j : Nat} (hi : i < items.size) (hj : j < items.size)
    (place : Nat) : (items.swapIfInBounds i j)[place]? = items[Equiv.swap i j place]? := by
  rw [Array.swapIfInBounds, dif_pos hi, dif_pos hj, Array.getElem?_swap, Equiv.swap_apply_def]
  by_cases hplace : place = j
  · subst hplace
    by_cases heq : place = i
    · subst heq
      simp [hi]
    · simp [heq, hi]
  · by_cases heq : place = i
    · subst heq
      simp [Ne.symm hplace, hj]
    · simp [Ne.symm hplace, Ne.symm heq, hplace, heq]

theorem getElem?_shuffleFrom (h : i ≤ items.size - 1) (place : Nat) :
    (shuffleFrom i g items).1[place]? = items[swaps i g.state place]? := by
  induction i generalizing g items with
  | zero => rfl
  | succ i ih =>
    have hle := g.below_le i
    have hsize : (items.swapIfInBounds (i + 1) (g.below (i + 2)).1).size = items.size :=
      Array.size_swapIfInBounds
    rw [shuffleFrom, ih (by omega), getElem?_swapIfInBounds (by omega) (by omega)]
    rfl

theorem shuffleFrom_perm (i : Nat) (g : Generator) (items : Array α) :
    (shuffleFrom i g items).1.Perm items := by
  induction i generalizing g items with
  | zero => exact .refl items
  | succ i ih =>
    refine (ih _ _).trans ?_
    rw [Array.swapIfInBounds]
    split
    · split
      · exact Array.swap_perm _ _
      · exact .refl items
    · exact .refl items

/-- Each swap takes one draw. -/
theorem shuffleFrom_snd (i : Nat) (g : Generator) (items : Array α) :
    (shuffleFrom i g items).2 = (fun g => g.next.2)^[i] g := by
  induction i generalizing g items with
  | zero => rfl
  | succ i ih => rw [shuffleFrom, ih, Function.iterate_succ_apply]; rfl

/-! ## In words -/

/-- The next word, unless this is the largest one. -/
def succInWords (word : UInt32) : Option UInt32 :=
  if word = 0xffffffff then none else some (word + 1)

/-- A draw in words, from the numbers below a bound that has to be positive. -/
def belowInWords (g : Generator) (bound : UInt32) : Option (UInt32 × Generator) :=
  if bound = 0 then none
  else
    let (word, g) := g.next
    some (((word.toUInt64 * bound.toUInt64) >>> 32).toUInt32, g)

/-- Swaps two places, both of which have to be there. -/
def swapPlaces (items : Array α) (i j : Nat) : Option (Array α) :=
  if h : i < items.size ∧ j < items.size then some (items.swap i j h.1 h.2) else none

def shuffleFromInWords : (i : Nat) → Generator → Array α → Option (Array α × Generator)
  | 0, g, items => some (items, g)
  | i + 1, g, items =>
    (succInWords (.ofNat (i + 1))).bind fun bound =>
      (g.belowInWords bound).bind fun (j, g) =>
        (swapPlaces items (i + 1) j.toNat).bind fun items => shuffleFromInWords i g items

def shuffleInWords (g : Generator) (items : Array α) : Option (Array α × Generator) :=
  shuffleFromInWords (items.size - 1) g items

theorem succInWords_ofNat {n : Nat} (h : n + 1 < 2 ^ 32) :
    succInWords (.ofNat n) = some (.ofNat (n + 1)) := by
  have hne : UInt32.ofNat n ≠ 0xffffffff := by
    rw [ne_eq, ← UInt32.toNat_inj, UInt32.toNat_ofNat_of_lt' (show n < 2 ^ 32 by omega)]
    simp only [UInt32.reduceToNat]
    omega
  rw [succInWords, if_neg hne, UInt32.ofNat_add]
  rfl

theorem belowInWords_ofNat (g : Generator) {bound : Nat} (hpos : 0 < bound)
    (hlt : bound < 2 ^ 32) :
    g.belowInWords (.ofNat bound) = some (.ofNat (g.below bound).1, (g.below bound).2) := by
  have hbound : (UInt32.ofNat bound).toNat = bound := UInt32.toNat_ofNat_of_lt' hlt
  have hne : UInt32.ofNat bound ≠ 0 := by
    rw [ne_eq, ← UInt32.toNat_inj, hbound]
    exact hpos.ne'
  have hproduct : g.next.1.toNat * bound < 2 ^ 64 := by
    calc g.next.1.toNat * bound
        < 2 ^ 32 * 2 ^ 32 := Nat.mul_lt_mul_of_lt_of_lt g.next.1.toNat_lt hlt
      _ = 2 ^ 64 := by decide
  have hword : ((g.next.1.toUInt64 * (UInt32.ofNat bound).toUInt64) >>> 32).toUInt32 =
      .ofNat (g.below bound).1 := by
    apply UInt32.toNat_inj.mp
    rw [UInt64.toNat_toUInt32, UInt64.toNat_shiftRight, UInt64.toNat_mul, UInt32.toNat_toUInt64,
      UInt32.toNat_toUInt64, hbound, Nat.mod_eq_of_lt hproduct, UInt32.toNat_ofNat']
    rfl
  rw [belowInWords, if_neg hne]
  exact congrArg (fun word => some (word, g.next.2)) hword

theorem swapPlaces_eq {j : Nat} (hi : i < items.size) (hj : j < items.size) :
    swapPlaces items i j = some (items.swapIfInBounds i j) := by
  rw [swapPlaces, dif_pos ⟨hi, hj⟩, Array.swapIfInBounds, dif_pos hi, dif_pos hj]

theorem shuffleFromInWords_eq (h : i ≤ items.size - 1) (hsize : items.size < 2 ^ 32) :
    shuffleFromInWords i g items = some (shuffleFrom i g items) := by
  induction i generalizing g items with
  | zero => rw [shuffleFromInWords, shuffleFrom]
  | succ i ih =>
    have hle := g.below_le i
    have hplace : (UInt32.ofNat (g.below (i + 2)).1).toNat = (g.below (i + 2)).1 :=
      UInt32.toNat_ofNat_of_lt' (show _ < 2 ^ 32 by omega)
    have hsize' : (items.swapIfInBounds (i + 1) (g.below (i + 2)).1).size = items.size :=
      Array.size_swapIfInBounds
    rw [shuffleFromInWords, succInWords_ofNat (by omega), Option.bind_some,
      belowInWords_ofNat g (by omega) (by omega), Option.bind_some]
    dsimp only
    rw [hplace, swapPlaces_eq (by omega) (by omega), Option.bind_some, ih (by omega) (by omega),
      shuffleFrom]

/-! ## Shuffles -/

/-- What a shuffle comes to.  Every place gets the item of a place that the state and the number of
items alone determine. -/
structure Shuffles (g : Generator) (items : Array α) : Prop where
  inWords : g.shuffleInWords items = some (g.shuffle items)
  perm : (g.shuffle items).1.Perm items
  draws : (g.shuffle items).2 = (fun g => g.next.2)^[items.size - 1] g
  ordered : ∀ place : Nat, (g.shuffle items).1[place]? = items[order g.state items.size place]?
  order_fixes : ∀ place, items.size ≤ place → order g.state items.size place = place

/-- As long as a word tells the number of items, a shuffle leaves all of them in another order. -/
theorem shuffle_permutes (g : Generator) (items : Array α) (h : items.size ≤ 2 ^ 32 - 1) :
    Shuffles g items where
  inWords := shuffleFromInWords_eq le_rfl (by omega)
  perm := shuffleFrom_perm _ g items
  draws := shuffleFrom_snd _ g items
  ordered := getElem?_shuffleFrom le_rfl
  order_fixes place hplace := by
    rw [order]
    rcases Nat.eq_zero_or_pos items.size with hzero | hpos
    · rw [hzero]
      rfl
    · exact swaps_of_lt g.state (by omega)

/-- Two of the four items are equal. -/
theorem permutes_equal_items :
    let items := #['a', 'b', 'a', 'c']
    items.size ≤ 2 ^ 32 - 1 ∧ Shuffles (ofSeed 1) items ∧
      ((ofSeed 1).shuffle items).1 = #['c', 'a', 'b', 'a'] := by
  intro items
  have hsize : items.size ≤ 2 ^ 32 - 1 := by decide
  exact ⟨hsize, shuffle_permutes (ofSeed 1) items hsize, by decide⟩

end Generator
end SpriteField
