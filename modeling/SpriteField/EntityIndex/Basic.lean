import SpriteField.Counter
import SpriteField.Entity
import SpriteField.Grid
import Std.Data.ExtTreeMap

/-!
# The entity index

Every id that was ever set owns one slot, in order of first use.  Two tables point back at the
slots: for each chunk the entities whose bounds overlap it, and for each tag the entities that carry
it.  A slot remembers all of its memberships, that is, each bucket it is in and the position there.
-/

namespace SpriteField

/-- Entry of a chunk's bucket, with what a search needs to test it. -/
structure ChunkEntry where
  slot : Nat
  id : Nat
  bounds : Rect
  tags : TagSet
  /-- The entity is in more than one chunk, so a search may meet it again. -/
  shared : Bool
deriving DecidableEq, Inhabited

structure Slot where
  entity : Entity
  chunkRefs : Array BackRef
  tagRefs : Array BackRef
  /-- The entity's quad as of the last change of what it depends on. -/
  quad : Quad
deriving DecidableEq, Inhabited

namespace Slot

def blank (id : Nat) : Slot :=
  ⟨.blank id, #[], #[], Vector.replicate quadSize default⟩

def isDrawable (s : Slot) : Bool :=
  s.entity.collider.bounds.hasArea

def withEntity (s : Slot) (entity : Entity) : Slot :=
  { s with entity, quad := entity.quad }

end Slot

structure IndexCounters where
  searches : Counter
  tagDrivenSearches : Counter
  candidatesVisited : Counter
  matchesReturned : Counter
  colliderUpdates : Counter
  membershipRemovals : Counter
  backReferenceFixups : Counter
deriving DecidableEq, Inhabited

structure EntityIndex where
  grid : Grid
  slots : Array Slot
  slotOf : Std.ExtTreeMap Nat Nat
  chunks : Std.ExtTreeMap Nat (Bucket ChunkEntry)
  /-- One bucket of slot numbers for each tag. -/
  tags : Array (Bucket Nat)
  /-- All quads in drawing order, unless `stale`. -/
  drawn : Array Vertex
  stale : Bool
  counters : IndexCounters

/-- A change of the index that can be refused.  The state after a refusal is kept. -/
abbrev IndexM := EStateM EngineError EntityIndex

namespace EntityIndex

def onGrid (grid : Grid) : EntityIndex where
  grid := grid
  slots := #[]
  slotOf := ∅
  chunks := ∅
  tags := Array.replicate tagCount .empty
  drawn := #[]
  stale := false
  counters := default

def new (grid : Grid) : Except EngineError EntityIndex := do
  grid.validate
  return onGrid grid

def standard : EntityIndex := onGrid .standard

instance : Inhabited EntityIndex where
  default := standard

/-- Number of ids ever set. -/
def size (ix : EntityIndex) : Nat :=
  ix.slots.size

def slot? (ix : EntityIndex) (id : Nat) : Option Slot := do
  ix.slots[← ix.slotOf[id]?]?

def get? (ix : EntityIndex) (id : Nat) : Option Entity :=
  (ix.slot? id).map (·.entity)

def entities (ix : EntityIndex) : List Entity :=
  ix.slots.toList.map (·.entity)

def chunkRefs (ix : EntityIndex) (slot : Nat) : Array BackRef :=
  (ix.slots[slot]?.map (·.chunkRefs)).getD #[]

def tagRefs (ix : EntityIndex) (slot : Nat) : Array BackRef :=
  (ix.slots[slot]?.map (·.tagRefs)).getD #[]

def modifySlot (ix : EntityIndex) (slot : Nat) (change : Slot → Slot) : EntityIndex :=
  { ix with slots := ix.slots.modify slot change }

def resetCounters (ix : EntityIndex) : EntityIndex :=
  { ix with counters := default }

end EntityIndex

end SpriteField
