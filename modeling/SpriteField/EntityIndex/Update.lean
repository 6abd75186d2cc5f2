import SpriteField.EntityIndex.Basic

/-!
# Updating the entity index

A new collider first takes its slot out of every bucket that the old one put it in, and then enters
the buckets of the new one.  Leaving a bucket moves the bucket's last entry into the gap, so the one
reference that named the moved entry's old position is pointed at the new one.

A bucket that the update will fill again is never dropped in between; any other chunk bucket is
dropped as soon as it is empty.
-/

namespace SpriteField.EntityIndex

def refTo? (refs : Array BackRef) (bucket position : Nat) : Option Nat :=
  refs.findIdx? fun ref => ref.bucket == bucket && ref.position == position

def withPosition (position : Nat) (ref : BackRef) : BackRef :=
  { ref with position }

def countFixup (ix : EntityIndex) : EntityIndex :=
  { ix with counters.backReferenceFixups := ix.counters.backReferenceFixups.increment 1 }

def countRemoval (ix : EntityIndex) : EntityIndex :=
  { ix with counters.membershipRemovals := ix.counters.membershipRemovals.increment 1 }

/-- An entry of `slot` has moved within the bucket of a chunk. -/
def repointChunk (slot chunk : Nat) (move : Relocation) : IndexM Unit := do
  match refTo? ((← get).chunkRefs slot) chunk move.source with
  | some i =>
    modify fun ix => countFixup <| ix.modifySlot slot fun s =>
      { s with chunkRefs := s.chunkRefs.modify i (withPosition move.target) }
  | none => throw (.inconsistent (.missingBackRef chunk move.source))

def repointTag (slot tag : Nat) (move : Relocation) : IndexM Unit := do
  match refTo? ((← get).tagRefs slot) tag move.source with
  | some i =>
    modify fun ix => countFixup <| ix.modifySlot slot fun s =>
      { s with tagRefs := s.tagRefs.modify i (withPosition move.target) }
  | none => throw (.inconsistent (.missingBackRef tag move.source))

/-- The bucket of a chunk without the entry at the place named; `none` once it is empty, unless the
chunk is in `kept`. -/
def chunkWithout (ref : BackRef) (kept : Span) (bucket : Bucket ChunkEntry) :
    Option (Bucket ChunkEntry) :=
  let bucket := bucket.swapPop ref.position
  if bucket.isEmpty && !kept.contains ref.bucket then none else some bucket

def leaveChunk (slot : Nat) (kept : Span) (ref : BackRef) : IndexM Unit := do
  match (← get).chunks[ref.bucket]? with
  | none => throw (.inconsistent (.missingChunk slot ref.bucket))
  | some bucket =>
    match bucket.get ref.position, bucket.moved ref.position with
    | .error error, _ => throw (.inconsistent (.chunkPosition ref.bucket error))
    | .ok _, moved =>
      modify fun ix =>
        { ix with chunks := ix.chunks.alter ref.bucket (·.bind (chunkWithout ref kept)) }
      match moved with
      | some (entry, move) => repointChunk entry.slot ref.bucket move
      | none => pure ()
      modify countRemoval

def leaveTag (slot : Nat) (ref : BackRef) : IndexM Unit := do
  match (← get).tags[ref.bucket]? with
  | none => throw (.inconsistent (.missingTag slot ref.bucket))
  | some bucket =>
    match bucket.get ref.position, bucket.moved ref.position with
    | .error error, _ => throw (.inconsistent (.tagPosition ref.bucket error))
    | .ok _, moved =>
      modify fun ix =>
        { ix with tags := ix.tags.modify ref.bucket (·.swapPop ref.position) }
      match moved with
      | some (other, move) => repointTag other ref.bucket move
      | none => pure ()
      modify countRemoval

def leaveChunks (slot : Nat) (kept : Span) : IndexM Unit := do
  let refs := (← get).chunkRefs slot
  modify (·.modifySlot slot fun s => { s with chunkRefs := #[] })
  refs.toList.forM (leaveChunk slot kept)

def leaveTags (slot : Nat) : IndexM Unit := do
  let refs := (← get).tagRefs slot
  modify (·.modifySlot slot fun s => { s with tagRefs := #[] })
  refs.toList.forM (leaveTag slot)

def openChunk (chunks : Std.ExtTreeMap Nat (Bucket ChunkEntry)) (chunk : Nat) :
    Std.ExtTreeMap Nat (Bucket ChunkEntry) :=
  chunks.insertIfNew chunk .empty

def joinChunk (entry : ChunkEntry) (chunk : Nat) : IndexM BackRef := do
  match (← get).chunks[chunk]? with
  | none => throw (.inconsistent (.vanishedChunk chunk))
  | some bucket =>
    let position := bucket.size
    modify fun ix => { ix with chunks := ix.chunks.modify chunk (·.push entry) }
    return ⟨chunk, position⟩

def joinTag (slot tag : Nat) : IndexM BackRef := do
  let position := ((← get).tags.getD tag .empty).size
  modify fun ix => { ix with tags := ix.tags.modify tag (·.push slot) }
  return ⟨tag, position⟩

/-- Swaps all memberships of a slot for those of the new collider. -/
def replaceCollider (slot : Nat) (collider : Collider) : IndexM Unit := do
  let span := Span.ofRect (← get).grid collider.bounds
  let chunkIds := span.ids
  let tagIds := collider.tags.toList
  modify fun ix => { ix with chunks := chunkIds.foldl openChunk ix.chunks }
  leaveChunks slot span
  leaveTags slot
  let entry : ChunkEntry :=
    ⟨slot, collider.id, collider.bounds, collider.tags, 1 < span.size⟩
  let chunkRefs ← chunkIds.mapM (joinChunk entry)
  let tagRefs ← tagIds.mapM (joinTag slot)
  modify fun ix =>
    let ix := ix.modifySlot slot fun s =>
      { s.withEntity { s.entity with collider } with
        chunkRefs := chunkRefs.toArray, tagRefs := tagRefs.toArray }
    { ix with
      stale := true
      counters.colliderUpdates := ix.counters.colliderUpdates.increment 1 }

/-- The slot of an id; an id that was never set gets the next one. -/
def slotFor (id : Nat) : IndexM Nat :=
  modifyGet fun ix =>
    match ix.slotOf[id]? with
    | some slot => (slot, ix)
    | none =>
      let slot := ix.slots.size
      (slot, { ix with slots := ix.slots.push (.blank id), slotOf := ix.slotOf.insert id slot })

def checkCollider (collider : Collider) : IndexM Unit :=
  if collider.bounds.isValid then pure ()
  else throw (.invalidBounds collider.id collider.bounds)

def spriteFault? (sprite : Sprite) : Option SpriteFault :=
  if !sprite.depth.isFinite then some .depth
  else if !sprite.texture.isValid || !sprite.texture.isWhole then some .texture
  else if !sprite.transform.isFinite then some .transform
  else none

def checkSprite (id : Nat) (sprite : Sprite) : IndexM Unit :=
  match spriteFault? sprite with
  | some fault => throw (.invalidSprite id fault)
  | none => pure ()

def replaceSprite (slot : Nat) (sprite : Sprite) : IndexM Unit :=
  modify fun ix =>
    { ix.modifySlot slot fun s => s.withEntity { s.entity with sprite } with stale := true }

/-- Adds an entity, or replaces all of it. -/
def set (entity : Entity) : IndexM Unit := do
  checkCollider entity.collider
  checkSprite entity.id entity.sprite
  let slot ← slotFor entity.id
  replaceCollider slot entity.collider
  replaceSprite slot entity.sprite

/-- Replaces where an entity is found; its sprite stays. -/
def setCollider (collider : Collider) : IndexM Unit := do
  checkCollider collider
  let slot ← slotFor collider.id
  replaceCollider slot collider

/-- Replaces how an entity is drawn; where it is found stays. -/
def setSprite (id : Nat) (sprite : Sprite) : IndexM Unit := do
  checkSprite id sprite
  let slot ← slotFor id
  replaceSprite slot sprite

/-- The collider of an id, a blank one for an id that was never set. -/
def colliderOf (ix : EntityIndex) (id : Nat) : Collider :=
  ((ix.get? id).map (·.collider)).getD (.blank id)

def setBounds (id : Nat) (bounds : Rect) : IndexM Unit := do
  setCollider { (← get).colliderOf id with bounds }

def setTagSet (id : Nat) (tags : TagSet) : IndexM Unit := do
  setCollider { (← get).colliderOf id with tags }

/-- Replaces the tags of an entity by the ones listed, unless one of the numbers is no tag. -/
def setTags (id : Nat) (tags : List Nat) : IndexM Unit := do
  match tags.foldlM (fun s tag => s.set? tag true) TagSet.empty with
  | .ok tags => setTagSet id tags
  | .error error => throw error

/-- The entity of an id; an id that was never set gets a blank one. -/
def getOrAdd (id : Nat) : IndexM Entity := do
  let slot ← slotFor id
  return ((← get).slots[slot]?.map (·.entity)).getD (.blank id)

end SpriteField.EntityIndex
