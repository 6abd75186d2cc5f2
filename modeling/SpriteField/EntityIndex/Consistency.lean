import SpriteField.EntityIndex.Basic

/-!
# Consistency of the entity index

Every reference has to name an entry of its own slot, no chunk may have an empty bucket, and the
tables may hold no more entries than there are references.
-/

namespace SpriteField.EntityIndex

/-- The reference names an entry of `slot` in the bucket of a chunk. -/
def namesChunkEntry (ix : EntityIndex) (slot : Nat) (ref : BackRef) : Bool :=
  match ix.chunks[ref.bucket]?.bind fun bucket => bucket.items[ref.position]? with
  | some entry => entry.slot == slot
  | none => false

def namesTagEntry (ix : EntityIndex) (slot : Nat) (ref : BackRef) : Bool :=
  match ix.tags[ref.bucket]?.bind fun bucket => bucket.items[ref.position]? with
  | some entry => entry == slot
  | none => false

/-- The first reference of a slot that names no entry of it. -/
def staleRef? (ix : EntityIndex) (s : Slot) (slot : Nat) : Option ConsistencyFault :=
  ((s.chunkRefs.toList.find? (!ix.namesChunkEntry slot ·)).map (.staleChunkRef slot)).or
    ((s.tagRefs.toList.find? (!ix.namesTagEntry slot ·)).map (.staleTagRef slot))

def chunkEntryCount (ix : EntityIndex) : Nat :=
  (ix.chunks.toList.map fun (_, bucket) => bucket.size).foldl (· + ·) 0

def tagEntryCount (ix : EntityIndex) : Nat :=
  (ix.tags.toList.map (·.size)).foldl (· + ·) 0

def chunkRefCount (ix : EntityIndex) : Nat :=
  (ix.slots.toList.map (·.chunkRefs.size)).foldl (· + ·) 0

def tagRefCount (ix : EntityIndex) : Nat :=
  (ix.slots.toList.map (·.tagRefs.size)).foldl (· + ·) 0

def fault? (ix : EntityIndex) : Option ConsistencyFault :=
  (ix.slots.toList.zipIdx.findSome? fun (s, slot) => ix.staleRef? s slot).or <|
    ((ix.chunks.toList.find? fun (_, bucket) => bucket.isEmpty).map fun (chunk, _) =>
      .emptyChunk chunk).or <|
    if ix.chunkEntryCount = ix.chunkRefCount ∧ ix.tagEntryCount = ix.tagRefCount then none
    else some (.entryCounts ix.chunkEntryCount ix.tagEntryCount ix.chunkRefCount ix.tagRefCount)

def check (ix : EntityIndex) : Except EngineError Unit :=
  match ix.fault? with
  | some fault => throw (.inconsistent fault)
  | none => return

end SpriteField.EntityIndex
