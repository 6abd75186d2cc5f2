import SpriteField.Hex

/-!
# Colors

Red, green, blue and alpha, eight bits each.
-/

namespace SpriteField

structure Color where
  red : UInt8
  green : UInt8
  blue : UInt8
  alpha : UInt8
deriving DecidableEq, Inhabited

namespace Color

def white : Color := ⟨255, 255, 255, 255⟩

def black : Color := ⟨0, 0, 0, 255⟩

def pureRed : Color := ⟨255, 0, 0, 255⟩

def pureGreen : Color := ⟨0, 255, 0, 255⟩

def pureBlue : Color := ⟨0, 0, 255, 255⟩

def transparent : Color := ⟨0, 0, 0, 0⟩

/-- Two hexadecimal digits for each channel. -/
def hex (c : Color) : String :=
  hexText 2 c.red.toNat ++ hexText 2 c.green.toNat ++ hexText 2 c.blue.toNat
    ++ hexText 2 c.alpha.toNat

def text (c : Color) : String :=
  "#" ++ c.hex

instance : ToString Color where
  toString := text

end Color

end SpriteField
