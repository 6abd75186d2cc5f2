/-!
# Capacity

The bytes of a buffer are counted by a signed 64-bit word.  A buffer that would take more of them
cannot be had, whatever memory there is.
-/

namespace SpriteField

def maxBufferBytes : Nat := 0x7fffffffffffffff

/-- There can be a buffer of `count` elements that take `elementBytes` bytes each. -/
def bufferFits (elementBytes count : Nat) : Bool :=
  elementBytes * count ≤ maxBufferBytes

end SpriteField
