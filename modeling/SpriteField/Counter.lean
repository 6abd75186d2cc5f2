/-!
# Event counters

A counter is a 64-bit word.  Increments wrap around, and a high-water mark keeps the largest value
recorded.
-/

namespace SpriteField

structure Counter where
  value : UInt64
deriving DecidableEq

namespace Counter

def zero : Counter := ⟨0⟩

instance : Inhabited Counter where
  default := zero

def increment (c : Counter) (amount : UInt64) : Counter :=
  ⟨c.value + amount⟩

/-- Keeps the larger of the counter and `value`. -/
def recordMax (c : Counter) (value : UInt64) : Counter :=
  ⟨max c.value value⟩

instance : ToString Counter where
  toString c := toString c.value

/-- The value so far, and the counter started again. -/
def take (c : Counter) : UInt64 × Counter :=
  (c.value, zero)

end Counter

end SpriteField
