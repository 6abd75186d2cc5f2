/-!
# Binary32 numbers

A coordinate is one 32-bit word: a sign, eight exponent bits and twenty-three fraction bits.  Every
finite word stands for a whole number of units, one unit being `2 ^ -149`, the least positive
value.  Statements about coordinates therefore become statements about integers.

Read without its sign, a word is its magnitude, and magnitudes are ordered as the values they stand
for.  The infinities read as `2 ^ 128`, the value next in line after the largest finite one, and
the words beyond them are not numbers.
-/

namespace SpriteField

structure Binary32 where
  bits : UInt32
deriving DecidableEq, Inhabited

namespace Binary32

/-- A unit is `2 ^ -unitExponent`. -/
def unitExponent : Nat := 149

def infinityMagnitude : Nat := 0x7f800000

def negative (x : Binary32) : Bool :=
  0x80000000 ≤ x.bits

/-- The word without its sign bit. -/
def magnitude (x : Binary32) : Nat :=
  (x.bits % 0x80000000).toNat

def ofMagnitude (negative : Bool) (magnitude : Nat) : Binary32 :=
  ⟨UInt32.ofNat (if negative then 0x80000000 + magnitude else magnitude)⟩

def zero : Binary32 := ⟨0⟩

def one : Binary32 := ⟨0x3f800000⟩

def infinity (negative : Bool) : Binary32 :=
  ofMagnitude negative infinityMagnitude

/-- The one word that stands for every result that is not a number. -/
def nan : Binary32 := ⟨0x7fc00000⟩

def isNaN (x : Binary32) : Bool :=
  infinityMagnitude < x.magnitude

def isInfinite (x : Binary32) : Bool :=
  x.magnitude = infinityMagnitude

def isFinite (x : Binary32) : Bool :=
  x.magnitude < infinityMagnitude

def isZero (x : Binary32) : Bool :=
  x.magnitude = 0

/-- The value is `significand * 2 ^ scale` units, up to its sign. -/
def significand (x : Binary32) : Nat :=
  if x.magnitude < 0x800000 then x.magnitude else 0x800000 + x.magnitude % 0x800000

def scale (x : Binary32) : Nat :=
  x.magnitude / 0x800000 - 1

/-- The exact value, counted in units. -/
def units (x : Binary32) : Int :=
  let size : Int := (x.significand <<< x.scale : Nat)
  if x.negative then -size else size

/-- Numbers compare by their keys; both zeros have key zero. -/
def key (x : Binary32) : Int :=
  if x.negative then -(x.magnitude : Int) else x.magnitude

/-- Nothing is less than, or greater than, a word that is not a number. -/
instance : LT Binary32 where
  lt x y := x.isNaN = false ∧ y.isNaN = false ∧ x.key < y.key

instance : LE Binary32 where
  le x y := x.isNaN = false ∧ y.isNaN = false ∧ x.key ≤ y.key

instance (x y : Binary32) : Decidable (x < y) :=
  inferInstanceAs (Decidable (_ ∧ _ ∧ _))

instance (x y : Binary32) : Decidable (x ≤ y) :=
  inferInstanceAs (Decidable (_ ∧ _ ∧ _))

/-- Numeric equality: the two zeros are equal, and no word that is not a number equals itself. -/
def numericEq (x y : Binary32) : Bool :=
  !x.isNaN && !y.isNaN && x.key == y.key

/-- Key of the total order on all words, in which negative zero lies below positive zero. -/
def totalKey (x : Binary32) : Int :=
  if x.negative then -(x.magnitude : Int) - 1 else x.magnitude

def neg (x : Binary32) : Binary32 :=
  ofMagnitude (!x.negative) x.magnitude

instance : Neg Binary32 where
  neg := neg

end Binary32

end SpriteField
