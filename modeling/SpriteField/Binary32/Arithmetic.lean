import SpriteField.Binary32.Rounding

/-!
# Arithmetic on binary32 numbers

Sum, difference, product and quotient, each rounded once.  An exact cancellation gives positive
zero, a sum of two zeros is negative only if both are, and products and quotients take the sign
that the signs of their operands give.
-/

namespace SpriteField.Binary32

/-- Sum of two finite numbers, neither of them zero. -/
def addNonzero (x y : Binary32) : Binary32 :=
  let scale := min x.scale y.scale
  let a := x.significand <<< (x.scale - scale)
  let b := y.significand <<< (y.scale - scale)
  if x.negative = y.negative then ofMagnitude x.negative (nearestDyadic (a + b) scale 0)
  else if b < a then ofMagnitude x.negative (nearestDyadic (a - b) scale 0)
  else if a < b then ofMagnitude y.negative (nearestDyadic (b - a) scale 0)
  else zero

def add (x y : Binary32) : Binary32 :=
  if x.isNaN || y.isNaN then nan
  else if x.isInfinite then
    if y.isInfinite && x.negative != y.negative then nan else x
  else if y.isInfinite then y
  else if y.isZero then
    if x.isZero then ofMagnitude (x.negative && y.negative) 0 else x
  else if x.isZero then y
  else addNonzero x y

instance : Add Binary32 where
  add := add

instance : Sub Binary32 where
  sub x y := x + -y

def mul (x y : Binary32) : Binary32 :=
  let negative := x.negative != y.negative
  if x.isNaN || y.isNaN then nan
  else if x.isInfinite || y.isInfinite then
    if x.isZero || y.isZero then nan else infinity negative
  else if x.isZero || y.isZero then ofMagnitude negative 0
  else
    ofMagnitude negative
      (nearestDyadic (x.significand * y.significand) (x.scale + y.scale) unitExponent)

instance : Mul Binary32 where
  mul := mul

def div (x y : Binary32) : Binary32 :=
  let negative := x.negative != y.negative
  if x.isNaN || y.isNaN then nan
  else if x.isInfinite then
    if y.isInfinite then nan else infinity negative
  else if y.isInfinite then ofMagnitude negative 0
  else if y.isZero then
    if x.isZero then nan else infinity negative
  else
    ofMagnitude negative
      (nearestMagnitude (x.significand <<< (x.scale + unitExponent)) (y.significand <<< y.scale))

instance : Div Binary32 where
  div := div

end SpriteField.Binary32
