import SpriteField.Atlas.Basic
import SpriteField.EntityIndex.Basic

/-!
# Settings and result of a workload

The same settings give the same run, and so the same report or the same failure.
-/

namespace SpriteField.Workload

structure Settings where
  seed : UInt64
  /-- Entities on each side of the field. -/
  gridSide : Nat
  spacing : Binary32
  frames : Nat
  /-- One in this many entities moves in a frame. -/
  moveEvery : Nat
  glyphs : Nat
deriving DecidableEq

def Settings.standard : Settings :=
  ⟨0x0b5e55ed, 64, .ofNat 24, 120, 8, 256⟩

instance : Inhabited Settings where
  default := .standard

def Settings.total (s : Settings) : Nat :=
  s.gridSide * s.gridSide

def Settings.stride (s : Settings) : Nat :=
  max s.moveEvery 1

def Settings.world (s : Settings) : Binary32 :=
  .ofNat s.gridSide * s.spacing

structure Report where
  entities : Nat
  vertices : Nat
  smallSearchHits : Nat
  largeSearchHits : Nat
  atlasWidth : Nat
  atlasHeight : Nat
  atlasUploads : Nat
  indexCounters : IndexCounters
  atlasCounters : AtlasCounters
deriving DecidableEq, Inhabited

def Report.lines (r : Report) : List String :=
  let index := r.indexCounters
  let atlas := r.atlasCounters
  [ s!"entities {r.entities}, vertices {r.vertices}",
    s!"small search hits {r.smallSearchHits}, large search hits {r.largeSearchHits}",
    s!"searches {index.searches}, tag driven {index.tagDrivenSearches}",
    s!"candidates visited {index.candidatesVisited}, matches returned {index.matchesReturned}",
    s!"collider updates {index.colliderUpdates}, removals {index.membershipRemovals}",
    s!"back reference fixups {index.backReferenceFixups}",
    s!"atlas {r.atlasWidth}x{r.atlasHeight}, uploads {r.atlasUploads}",
    s!"regions placed {atlas.regionsPlaced}, free list hits {atlas.freeListHits}",
    s!"growths {atlas.growths}, free list high water {atlas.freeListHighWater}" ]

inductive Failure where
  | engine (error : EngineError)
  | entityCount (count : Nat)
  | overlap (region : Rect)
deriving DecidableEq, Inhabited

def Failure.message : Failure → String
  | .engine error => error.message
  | .entityCount count => s!"expected one slot per entity, got {count}"
  | .overlap region => s!"atlas region {region} overlaps another region"

end SpriteField.Workload
