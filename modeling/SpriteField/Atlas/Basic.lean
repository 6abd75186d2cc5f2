import SpriteField.Config
import SpriteField.Counter

/-!
# The atlas

Rectangular regions are packed into one image, and the parts of it that no region covers are kept in
a list of free rectangles.  Region ids are dense: touching an id makes empty regions of all lower
ones.
-/

namespace SpriteField

structure AtlasCounters where
  regionsPlaced : Counter
  freeListHits : Counter
  growths : Counter
  freeListHighWater : Counter
deriving DecidableEq, Inhabited

structure Atlas where
  limits : AtlasLimits
  image : Image
  regions : Array Rect
  free : Array Rect
  counters : AtlasCounters
deriving DecidableEq, Inhabited

/-- A change of the atlas that can be refused.  The state after a refusal is kept. -/
abbrev AtlasM := EStateM EngineError Atlas

namespace Atlas

def maxRegionId : Nat := 0x7fffffff

/-- The atlas without regions; its image is one white pixel. -/
def within (limits : AtlasLimits) : Atlas :=
  ⟨limits, .single .white, #[], #[], default⟩

def new (limits : AtlasLimits) : Except EngineError Atlas := do
  limits.validate
  return within limits

def standard : Atlas := within .standard

/-- Number of region records, one more than the largest id touched. -/
def size (atlas : Atlas) : Nat :=
  atlas.regions.size

/-- The place of a region, without extent if the region is empty. -/
def region? (atlas : Atlas) (id : Nat) : Option Rect :=
  atlas.regions[id]?

/-- The regions that hold pixels, with their ids. -/
def liveRegions (atlas : Atlas) : List (Nat × Rect) :=
  (atlas.regions.toList.zipIdx.filter fun (r, _) => r.hasArea).map fun (r, id) => (id, r)

def resetCounters (atlas : Atlas) : Atlas :=
  { atlas with counters := default }

end Atlas

end SpriteField
