import SpriteField.Binary32.Rounding

/-!
# Whole numbers near a coordinate

Floor, ceiling and nearest whole number of a binary32 value.  A conversion to a bounded range of
integers clamps: the infinities go to its ends, and a word that is not a number goes to zero.
-/

namespace SpriteField.Binary32

/-- The magnitude of the value without its fraction. -/
def wholePart (x : Binary32) : Nat :=
  if unitExponent ≤ x.scale then x.significand <<< (x.scale - unitExponent)
  else x.significand >>> (unitExponent - x.scale)

/-- Some digit behind the binary point is set. -/
def hasFraction (x : Binary32) : Bool :=
  x.significand % (1 <<< (unitExponent - x.scale)) != 0

def isWhole (x : Binary32) : Bool :=
  x.isFinite && !x.hasFraction

/-- The nearest integer in the range of a signed 64-bit word. -/
def clampToWord (n : Int) : Int :=
  max (-0x8000000000000000) (min n 0x7fffffffffffffff)

/-- The greatest integer that is at most the value, clamped. -/
def floor (x : Binary32) : Int :=
  if x.isNaN then 0
  else if x.negative then clampToWord (-((x.wholePart + x.hasFraction.toNat : Nat) : Int))
  else clampToWord x.wholePart

/-- The least integer that is at least the value, clamped. -/
def ceil (x : Binary32) : Int :=
  if x.isNaN then 0
  else if x.negative then clampToWord (-(x.wholePart : Int))
  else clampToWord ((x.wholePart + x.hasFraction.toNat : Nat) : Int)

/-- The value without its fraction, clamped to what an unsigned 32-bit word holds. -/
def toNat (x : Binary32) : Nat :=
  if x.isNaN || x.negative then 0 else min x.wholePart 0xffffffff

/-- The nearest whole number, the one farther from zero of two equally near.  The sign is kept, also
on zero. -/
def round (x : Binary32) : Binary32 :=
  if unitExponent ≤ x.scale then x
  else
    let fractionBits := unitExponent - x.scale
    let rounded := (x.significand + 1 <<< (fractionBits - 1)) >>> fractionBits
    ofMagnitude x.negative (nearestDyadic rounded unitExponent 0)

end SpriteField.Binary32
