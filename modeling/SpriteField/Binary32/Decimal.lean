import SpriteField.Binary32.Basic

/-!
# Shortest decimal text

A number is written with the fewest significant digits that still read back as the same number.
The values that read back as `x` lie between the midpoints to its two neighbours, the midpoints
included when the significand is even.  Going from coarse to fine powers of ten, the first one with
a multiple between the midpoints gives the digits; if both multiples next to `x` qualify the nearer
one is taken, and the larger one of two equally near.

The text is always positional: no exponent, and no point behind a whole number.
-/

namespace SpriteField

/-- The value `digits * 10 ^ up / 10 ^ down`. -/
structure Decimal where
  digits : Nat
  up : Nat
  down : Nat

namespace Decimal

/-- Positional notation without a sign. -/
def text (d : Decimal) : String :=
  let digits := Nat.repr d.digits
  if d.down = 0 then digits ++ String.ofList (List.replicate d.up '0')
  else
    let padded := List.replicate (d.down + 1 - digits.length) '0' ++ digits.toList
    let whole := padded.length - d.down
    String.ofList (padded.take whole ++ '.' :: padded.drop whole)

end Decimal

namespace Binary32

/-- The midpoints to the neighbours of `x` and `x` itself, in quarters of a unit.  Below a power of
two the neighbours are closer. -/
def quarters (x : Binary32) : Nat × Nat × Nat :=
  let step := 1 <<< x.scale
  let value := 4 * x.significand * step
  let below := if x.significand = 0x800000 ∧ 0 < x.scale then step else 2 * step
  (value - below, value, value + 2 * step)

/-- The multiple of `10 ^ up / 10 ^ down` that reads back as `x`, if there is one. -/
def decimalOn? (x : Binary32) (up down : Nat) : Option Decimal :=
  let (low, value, high) := x.quarters
  let step := Nat.pow 10 up <<< (unitExponent + 2)
  let tens := Nat.pow 10 down
  let num := value * tens
  let digits := num / step
  let closed := x.significand % 2 = 0
  let lowerFits := low * tens < digits * step ∨ (closed ∧ low * tens = digits * step)
  let upperFits :=
    (digits + 1) * step < high * tens ∨ (closed ∧ (digits + 1) * step = high * tens)
  let upperNearer := (digits + 1) * step - num ≤ num - digits * step
  if lowerFits ∧ ¬(upperFits ∧ upperNearer) then some ⟨digits, up, down⟩
  else if upperFits then some ⟨digits + 1, up, down⟩
  else none

/-- Tries the powers `10 ^ up`, ..., `10`, `1`, then `1 / 10`, ..., `1 / 10 ^ fuel`. -/
def shortestFrom (x : Binary32) (fuel : Nat) : Nat → Option Decimal
  | up + 1 => (x.decimalOn? (up + 1) 0).or (shortestFrom x fuel up)
  | 0 => (List.range (fuel + 1)).findSome? fun down => x.decimalOn? 0 down

/-- The shortest decimal that reads back as the magnitude of the finite number `x`.  The search
starts above the value, and multiples of `10 ^ -45` are denser than binary32 numbers. -/
def shortest (x : Binary32) : Decimal :=
  let digitCount := (Nat.repr ((x.significand <<< x.scale) >>> unitExponent)).length
  (x.shortestFrom 45 digitCount).getD ⟨0, 0, 0⟩

def text (x : Binary32) : String :=
  if x.isNaN then "NaN"
  else
    let size := if x.isInfinite then "inf" else if x.isZero then "0" else x.shortest.text
    if x.negative then "-" ++ size else size

instance : ToString Binary32 where
  toString := text

end Binary32

end SpriteField
