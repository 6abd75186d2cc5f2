import SpriteField.Hex
import SpriteField.Json.Token
import Mathlib.Tactic

/-!
# Hexadecimal text read back

A number is written with as many digits as were asked for, and these stand for what is left of it
when all higher places are cut off.  The digits of a long number are those of its two parts.
-/

namespace SpriteField

/-- The number that digits stand for, the most significant one first. -/
def hexNumber? (digits : List Char) : Option Nat :=
  digits.foldlM (fun n c => (Json.Piece.hexValue? c).map (16 * n + ·)) 0

theorem hexValue?_digitChar {d : Nat} (h : d < 16) :
    Json.Piece.hexValue? (Nat.digitChar d) = some d := by
  revert d
  decide

theorem hexNumber?_concat {digits : List Char} {n d : Nat} (h : hexNumber? digits = some n)
    (hd : d < 16) : hexNumber? (digits ++ [Nat.digitChar d]) = some (16 * n + d) := by
  rw [hexNumber?] at h ⊢
  rw [List.foldlM_append, h]
  simp [hexValue?_digitChar hd]

@[simp] theorem length_hexDigits (width n : Nat) : (hexDigits width n).length = width := by
  induction width generalizing n with
  | zero => rfl
  | succ width ih => rw [hexDigits, List.length_append, ih, List.length_singleton]

theorem hexNumber?_hexDigits (width n : Nat) :
    hexNumber? (hexDigits width n) = some (n % 16 ^ width) := by
  induction width generalizing n with
  | zero => simp [hexDigits, hexNumber?, Nat.mod_one]
  | succ width ih =>
    rw [hexDigits, hexNumber?_concat (ih _) (Nat.mod_lt n (by decide)), pow_succ',
      Nat.mod_mul, Nat.add_comm]

theorem hexDigits_add (width high : Nat) {rest n : Nat} (h : n < 16 ^ rest) :
    hexDigits (width + rest) (high * 16 ^ rest + n) =
      hexDigits width high ++ hexDigits rest n := by
  induction rest generalizing n with
  | zero =>
    have hzero : n = 0 := by simpa using h
    simp [hzero, hexDigits]
  | succ rest ih =>
    have hsplit : high * 16 ^ (rest + 1) + n = 16 * (high * 16 ^ rest) + n := by
      rw [pow_succ]
      ring
    have hlast : n / 16 < 16 ^ rest := by
      rw [pow_succ'] at h
      exact Nat.div_lt_of_lt_mul h
    rw [← Nat.add_assoc, hexDigits, hexDigits, hsplit, Nat.mul_add_div (by decide),
      Nat.mul_add_mod, ih hlast, List.append_assoc]

end SpriteField
