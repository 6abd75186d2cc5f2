import SpriteField.EntityIndex.Basic
import Std.Data.HashSet

/-!
# Searching the entity index

A search walks a list of candidates and reports those that the query accepts, each entity once.  The
candidates are the entries of all chunks that the query overlaps or, if the query requires tags and
the rarest of them has fewer entities than that, the entities that carry this tag.
-/

namespace SpriteField

/-- What a search has met so far. -/
structure Walk where
  found : Array Nat
  visited : Nat
  /-- Slots of the entities found that may be met again. -/
  seen : Std.HashSet Nat

namespace Walk

def start : Walk := ⟨#[], 0, ∅⟩

def visit (query : Query) (walk : Walk) (entry : ChunkEntry) : Walk :=
  let visited := walk.visited + 1
  if !query.accepts entry.id entry.bounds entry.tags then { walk with visited }
  else if !entry.shared then { walk with visited, found := walk.found.push entry.id }
  else if walk.seen.contains entry.slot then { walk with visited }
  else ⟨walk.found.push entry.id, visited, walk.seen.insert entry.slot⟩

/-- Meets the candidates in order, until as many entities as `limit` allows are found. -/
def run (query : Query) (limit : Option Nat) : List ChunkEntry → Walk → Walk
  | [], walk => walk
  | entry :: entries, walk =>
    let walk := walk.visit query entry
    if limit = some walk.found.size then walk else run query limit entries walk

end Walk

namespace EntityIndex

def chunkCandidates (ix : EntityIndex) (span : Span) : List ChunkEntry :=
  span.ids.flatMap fun chunk => (ix.chunks.getD chunk .empty).items.toList

def tagBucket (ix : EntityIndex) (tag : Nat) : Bucket Nat :=
  ix.tags.getD tag .empty

/-- The entities that carry a tag.  None of them is met twice. -/
def tagCandidates (ix : EntityIndex) (tag : Nat) : List ChunkEntry :=
  (ix.tagBucket tag).items.toList.filterMap fun slot =>
    ix.slots[slot]?.map fun s =>
      ⟨slot, s.entity.id, s.entity.collider.bounds, s.entity.collider.tags, false⟩

/-- The required tag that the fewest entities carry, the first of several. -/
def narrowestTag? (ix : EntityIndex) (required : TagSet) : Option Nat :=
  required.toList.foldl
    (fun best tag =>
      match best with
      | some other => if (ix.tagBucket tag).size < (ix.tagBucket other).size then tag else other
      | none => tag)
    none

inductive Plan where
  | chunks
  | tag (tag : Nat)
deriving DecidableEq, Inhabited

/-- The rarest required tag is walked if it has fewer entries than the chunks. -/
def plan (ix : EntityIndex) (required : TagSet) (entries : List ChunkEntry) : Plan :=
  match ix.narrowestTag? required with
  | some tag => if (ix.tagBucket tag).size < entries.length then .tag tag else .chunks
  | none => .chunks

def recordWalk (ix : EntityIndex) (walk : Walk) : EntityIndex :=
  { ix with
    counters.candidatesVisited :=
      ix.counters.candidatesVisited.increment (UInt64.ofNat walk.visited)
    counters.matchesReturned :=
      ix.counters.matchesReturned.increment (UInt64.ofNat walk.found.size) }

/-- Ids of at most `limit` entities that the query accepts. -/
def scan (ix : EntityIndex) (query : Query) (limit : Option Nat) : Array Nat × EntityIndex :=
  let ix := { ix with counters.searches := ix.counters.searches.increment 1 }
  let span := Span.ofRect ix.grid query.bounds
  if !query.bounds.isValid || span.isEmpty then (#[], ix)
  else
    let entries := ix.chunkCandidates span
    match ix.plan query.tags entries with
    | .chunks =>
      let walk := Walk.run query limit entries .start
      (walk.found, ix.recordWalk walk)
    | .tag tag =>
      let walk := Walk.run query limit (ix.tagCandidates tag) .start
      let ix := { ix with
        counters.tagDrivenSearches := ix.counters.tagDrivenSearches.increment 1 }
      (walk.found, ix.recordWalk walk)

def searchAll (ix : EntityIndex) (query : Query) : Array Nat × EntityIndex :=
  ix.scan query none

/-- Writes ids that match to the front of a buffer, as many as it holds; answers their number and
the buffer.  A buffer without places is not searched for. -/
def search (ix : EntityIndex) (query : Query) (buffer : Array Nat) :
    (Nat × Array Nat) × EntityIndex :=
  if buffer.isEmpty then ((0, buffer), ix)
  else
    let (found, ix) := ix.scan query (some buffer.size)
    ((found.size, found ++ buffer.extract found.size buffer.size), ix)

end EntityIndex

end SpriteField
