import SpriteField.Proofs.EntityIndex.Tables
import SpriteField.Proofs.Grid.Span
import SpriteField.Proofs.TagSet

/-!
# What is true of the entity index between two calls

Ids and slots determine each other, every slot refers to exactly the chunks and tags of its
collider, both tables are linked with these references, and what a chunk's bucket says about a slot
is what the slot says now.
-/

namespace SpriteField

/-- The entry that stands for a collider in the bucket of each of its chunks. -/
def ChunkEntry.ofCollider (grid : Grid) (slot : Nat) (collider : Collider) : ChunkEntry :=
  ⟨slot, collider.id, collider.bounds, collider.tags,
    1 < (Span.ofRect grid collider.bounds).size⟩

namespace EntityIndex

structure Consistent (ix : EntityIndex) : Prop where
  grid : ix.grid.validate = .ok ()
  slotOf_iff : ∀ id slot : Nat, ix.slotOf[id]? = some slot ↔
    ∃ s : Slot, ix.slots[slot]? = some s ∧ s.entity.id = id
  bounds : ∀ {slot : Nat} {s : Slot}, ix.slots[slot]? = some s →
    s.entity.collider.bounds.isValid = true
  chunkRefs : ∀ {slot : Nat} {s : Slot}, ix.slots[slot]? = some s →
    s.chunkRefs.toList.map (·.bucket) = (Span.ofRect ix.grid s.entity.collider.bounds).ids
  tagRefs : ∀ {slot : Nat} {s : Slot}, ix.slots[slot]? = some s →
    s.tagRefs.toList.map (·.bucket) = s.entity.collider.tags.toList
  chunks : Linked (·.slot) ix.chunkEntries ix.chunkRefList
  tags : Linked id ix.tagSlots ix.tagRefList
  current : ∀ chunk, ∀ entry ∈ ix.chunkEntries chunk, ∃ s : Slot,
    ix.slots[entry.slot]? = some s ∧ entry = .ofCollider ix.grid entry.slot s.entity.collider
  filled : ∀ {chunk : Nat} {bucket : Bucket ChunkEntry}, ix.chunks[chunk]? = some bucket →
    bucket.isEmpty = false
  tagCount : ix.tags.size = tagCount

@[simp] theorem chunkRefList_onGrid (grid : Grid) (slot : Nat) :
    (onGrid grid).chunkRefList slot = [] :=
  chunkRefList_of_none rfl

@[simp] theorem tagRefList_onGrid (grid : Grid) (slot : Nat) :
    (onGrid grid).tagRefList slot = [] :=
  tagRefList_of_none rfl

@[simp] theorem chunkEntries_onGrid (grid : Grid) (chunk : Nat) :
    (onGrid grid).chunkEntries chunk = #[] := by
  simp [chunkEntries_eq, onGrid]

@[simp] theorem tagSlots_onGrid (grid : Grid) (tag : Nat) : (onGrid grid).tagSlots tag = #[] := by
  rw [tagSlots_eq, onGrid, Array.getElem?_replicate]
  split <;> rfl

theorem consistent_onGrid {grid : Grid} (hgrid : grid.validate = .ok ()) :
    (onGrid grid).Consistent where
  grid := hgrid
  slotOf_iff id slot := by simp [onGrid]
  bounds h := by simp [onGrid] at h
  chunkRefs h := by simp [onGrid] at h
  tagRefs h := by simp [onGrid] at h
  chunks := by
    constructor <;> simp
  tags := by
    constructor <;> simp
  current chunk entry h := by simp at h
  filled h := by simp [onGrid] at h
  tagCount := by simp [onGrid]

/-- A consistent index consists of its grid, slots and tables. -/
theorem Consistent.congr {ix ix' : EntityIndex} (h : ix.Consistent) (hgrid : ix'.grid = ix.grid)
    (hslots : ix'.slots = ix.slots) (hslotOf : ix'.slotOf = ix.slotOf)
    (hchunks : ix'.chunks = ix.chunks) (htags : ix'.tags = ix.tags) : ix'.Consistent := by
  obtain ⟨grid, slots, slotOf, chunks, tags, drawn, stale, counters⟩ := ix
  obtain ⟨grid', slots', slotOf', chunks', tags', drawn', stale', counters'⟩ := ix'
  subst hgrid hslots hslotOf hchunks htags
  exact ⟨h.grid, h.slotOf_iff, h.bounds, h.chunkRefs, h.tagRefs, h.chunks, h.tags, h.current,
    h.filled, h.tagCount⟩

namespace Consistent

variable {ix : EntityIndex} {slot : Nat} {s : Slot}

theorem chunkRefList_bucket (h : ix.Consistent) (hs : ix.slots[slot]? = some s) :
    (ix.chunkRefList slot).map (·.bucket) =
      (Span.ofRect ix.grid s.entity.collider.bounds).ids := by
  rw [chunkRefList_eq hs, h.chunkRefs hs]

theorem tagRefList_bucket (h : ix.Consistent) (hs : ix.slots[slot]? = some s) :
    (ix.tagRefList slot).map (·.bucket) = s.entity.collider.tags.toList := by
  rw [tagRefList_eq hs, h.tagRefs hs]

theorem bucket_lt (h : ix.Consistent) {ref : BackRef} (href : ref ∈ ix.chunkRefList slot) :
    ref.bucket < ix.grid.size * ix.grid.size := by
  obtain ⟨s, hs⟩ := slots_of_mem_chunkRefList href
  have hmem := List.mem_map_of_mem (f := BackRef.bucket) href
  rw [h.chunkRefList_bucket hs] at hmem
  exact Span.lt_of_mem_ids h.grid hmem

end Consistent

end EntityIndex
end SpriteField
