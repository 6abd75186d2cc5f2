/-!
# Hexadecimal text

Numbers written with a fixed count of lowercase hexadecimal digits, the most significant first.
-/

namespace SpriteField

/-- The digits of `n` below `16 ^ width`, padded with zeros to `width` places. -/
def hexDigits : (width n : Nat) → List Char
  | 0, _ => []
  | width + 1, n => hexDigits width (n / 16) ++ [Nat.digitChar (n % 16)]

def hexText (width n : Nat) : String :=
  String.ofList (hexDigits width n)

end SpriteField
