import SpriteField.Counter
import Mathlib.Tactic

/-!
# Sums in a counter

Increments add up, so a counter that starts at zero holds the sum of what it was told, as a word.
-/

namespace SpriteField.Counter

@[simp] theorem increment_increment (c : Counter) (m n : Nat) :
    (c.increment (UInt64.ofNat m)).increment (UInt64.ofNat n) =
      c.increment (UInt64.ofNat (m + n)) := by
  simp [increment, UInt64.ofNat_add, UInt64.add_assoc]

@[simp] theorem increment_zero (c : Counter) : c.increment 0 = c := by
  simp [increment]

/-- The counter that has counted to `n`. -/
def upTo (n : Nat) : Counter :=
  ⟨UInt64.ofNat n⟩

theorem increment_upTo (m n : Nat) : (upTo m).increment (UInt64.ofNat n) = upTo (m + n) := by
  rw [upTo, upTo, increment, UInt64.ofNat_add]

theorem toNat_upTo {n : Nat} (h : n < 2 ^ 64) : (upTo n).value.toNat = n :=
  UInt64.toNat_ofNat_of_lt' h

end SpriteField.Counter
