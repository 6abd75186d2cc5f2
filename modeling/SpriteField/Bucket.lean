import SpriteField.Capacity

/-!
# Buckets

Unordered storage without holes.  An element is removed by moving the last one into its place, and
the move is reported, so that whoever remembers positions can follow every element.
-/

namespace SpriteField

/-- Removes the element at `i` by moving the last one into its place. -/
def swapPop (items : Array α) (i : Nat) : Array α :=
  match items.back? with
  | some last => if i < items.size then (items.setIfInBounds i last).pop else items
  | none => items

inductive BucketError where
  | indexOutOfBounds (index size : Nat)
deriving DecidableEq, Inhabited

def BucketError.message : BucketError → String
  | .indexOutOfBounds index size => s!"index {index} out of bounds (len {size})"

/-- An element moved from position `source` to position `target`. -/
structure Relocation where
  source : Nat
  target : Nat
deriving DecidableEq, Inhabited

structure Bucket (α : Type u) where
  items : Array α
deriving DecidableEq, Inhabited

namespace Bucket

def empty : Bucket α := ⟨#[]⟩

def size (b : Bucket α) : Nat := b.items.size

def isEmpty (b : Bucket α) : Bool := b.items.isEmpty

/-- The new element's position is the size before the push. -/
def push (b : Bucket α) (value : α) : Bucket α :=
  ⟨b.items.push value⟩

/-- There is room for `additional` more elements that take `elementBytes` bytes each. -/
def canReserve (b : Bucket α) (elementBytes additional : Nat) : Bool :=
  bufferFits elementBytes (b.size + additional)

def get (b : Bucket α) (i : Nat) : Except BucketError α :=
  match b.items[i]? with
  | some value => .ok value
  | none => .error (.indexOutOfBounds i b.size)

def swapPop (b : Bucket α) (i : Nat) : Bucket α :=
  ⟨SpriteField.swapPop b.items i⟩

/-- The element that a removal at `i` moves, and its move; nothing moves when `i` is the last
position. -/
def moved (b : Bucket α) (i : Nat) : Option (α × Relocation) :=
  if i + 1 < b.size then b.items.back?.map fun last => (last, ⟨b.size - 1, i⟩) else none

structure Removal (α : Type u) where
  removed : α
  moved : Option (α × Relocation)
  bucket : Bucket α

def swapRemove (b : Bucket α) (i : Nat) : Except BucketError (Removal α) := do
  return ⟨← b.get i, b.moved i, b.swapPop i⟩

end Bucket

end SpriteField
