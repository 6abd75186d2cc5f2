import SpriteField.Binary32.Basic

/-!
# Rounding to binary32

Every arithmetic result is the exact result rounded once, to the nearest binary32 number and to the
even neighbour on a tie.  For a value of at least `2 ^ 23` units the neighbours are
`2 ^ exponent` units apart, where the exponent leaves twenty-four significant bits; below that they
are one unit apart.  A rounded significand that reaches `2 ^ 24` carries into the exponent field by
plain addition, and everything past the largest finite value becomes infinite.
-/

namespace SpriteField.Binary32

/-- The whole number nearest to `num / den`, the even one of two equally near. -/
def roundQuotient (num den : Nat) : Nat :=
  let quotient := num / den
  let twice := 2 * (num % den)
  if twice < den then quotient
  else if den < twice then quotient + 1
  else quotient + quotient % 2

/-- Magnitude of the number nearest to `num / den` units. -/
def nearestMagnitude (num den : Nat) : Nat :=
  let exponent := (num / den).log2 - 23
  min (exponent * 0x800000 + roundQuotient num (den <<< exponent)) infinityMagnitude

/-- Magnitude of the number nearest to `m * 2 ^ up / 2 ^ down` units, found without building the
full-width numerator. -/
def nearestDyadic (m up down : Nat) : Nat :=
  if m = 0 then 0
  else
    let exponent := m.log2 + up - (down + 23)
    let rounded :=
      if down + exponent ≤ up then m <<< (up - (down + exponent))
      else roundQuotient m (1 <<< (down + exponent - up))
    min (exponent * 0x800000 + rounded) infinityMagnitude

/-- The number nearest to `± num / den`. -/
def ofRatio (negative : Bool) (num den : Nat) : Binary32 :=
  ofMagnitude negative (nearestMagnitude (num <<< unitExponent) den)

def ofNat (n : Nat) : Binary32 :=
  ofMagnitude false (nearestDyadic n unitExponent 0)

def ofFraction (n k : Nat) : Binary32 :=
  ofMagnitude false (nearestDyadic n unitExponent k)

end SpriteField.Binary32
