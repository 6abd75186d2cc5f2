import SpriteField.Proofs.EntityIndex.Tables
import SpriteField.Proofs.Refusal

/-!
# Joining buckets

An update enters the buckets of the new collider one at a time.  In between, the slot counts as
referring to what it has joined so far, and with this reading the tables stay linked.
-/

namespace SpriteField
namespace EntityIndex

/-! ## Chunks -/

theorem chunkEntries_join {ix ix' : EntityIndex} {entry : ChunkEntry} {chunk : Nat}
    {bucket : Bucket ChunkEntry} (h : ix'.chunks = ix.chunks.modify chunk (·.push entry))
    (hbucket : ix.chunks[chunk]? = some bucket) (key : Nat) :
    ix'.chunkEntries key =
      if key = chunk then (ix.chunkEntries key).push entry else ix.chunkEntries key := by
  rw [chunkEntries_eq, chunkEntries_eq, h, getElem?_modify_key]
  split
  next heq =>
    rw [heq, hbucket]
    rfl
  next => rfl

/-- Of the chunks in `ids`, the slot of `entry` has joined those of `joined` and has yet to join
`pending`. -/
structure JoiningChunks (start ix : EntityIndex) (entry : ChunkEntry) (ids pending : List Nat)
    (joined : List BackRef) : Prop where
  frame : ix = { start with chunks := ix.chunks }
  linked : Linked (·.slot) ix.chunkEntries (Function.update start.chunkRefList entry.slot joined)
  order : joined.map (·.bucket) ++ pending = ids
  nodup : ids.Nodup
  entries : ∀ chunk, ∀ found ∈ ix.chunkEntries chunk,
    found ∈ start.chunkEntries chunk ∨ found = entry
  filled : ∀ {chunk : Nat} {bucket : Bucket ChunkEntry}, ix.chunks[chunk]? = some bucket →
    bucket.isEmpty = false ∨ chunk ∈ pending
  opened : ∀ chunk ∈ pending, ∃ bucket, ix.chunks[chunk]? = some bucket

theorem joinChunk_ok {start ix : EntityIndex} {entry : ChunkEntry} {chunk : Nat}
    {ids pending : List Nat} {joined : List BackRef}
    (h : JoiningChunks start ix entry ids (chunk :: pending) joined) :
    ∃ ref ix', joinChunk entry chunk ix = .ok ref ix' ∧
      JoiningChunks start ix' entry ids pending (joined ++ [ref]) := by
  obtain ⟨bucket, hbucket⟩ := h.opened chunk List.mem_cons_self
  have hitems : ix.chunkEntries chunk = bucket.items := by
    rw [chunkEntries_eq, hbucket]
    rfl
  set ix' : EntityIndex := { ix with chunks := ix.chunks.modify chunk (·.push entry) } with hix'
  have hget : ∀ key, ix'.chunks[key]? =
      if key = chunk then (ix.chunks[key]?).map (·.push entry) else ix.chunks[key]? :=
    fun key => getElem?_modify_key ix.chunks chunk key _
  have hentries : ∀ key, ix'.chunkEntries key =
      if key = chunk then (ix.chunkEntries key).push entry else ix.chunkEntries key :=
    chunkEntries_join rfl hbucket
  have hnew : chunk ∉ joined.map (·.bucket) := by
    intro hmem
    have hnodup := h.nodup
    rw [← h.order] at hnodup
    exact (List.nodup_append.mp hnodup).2.2 chunk hmem chunk List.mem_cons_self rfl
  refine ⟨⟨chunk, bucket.size⟩, ix', ?_, ?_⟩
  · unfold joinChunk
    rw [get_bind, hbucket]
    rfl
  constructor
  · rw [hix', h.frame]
  · apply h.linked.join rfl
    constructor
    · rwa [Function.update_self]
    · exact hentries
    · rw [Function.update_self, Function.update_self, hitems]
      rfl
    · intro other hne
      rw [Function.update_of_ne hne, Function.update_of_ne hne]
  · rw [← h.order, List.map_append, List.append_assoc]
    rfl
  · exact h.nodup
  · intro key found hfound
    rw [hentries] at hfound
    split at hfound
    · rcases Array.mem_push.mp hfound with hfound | rfl
      · exact h.entries key found hfound
      · exact Or.inr rfl
    · exact h.entries key found hfound
  · intro key found hfound
    rw [hget] at hfound
    split at hfound
    next heq =>
      obtain ⟨old, -, rfl⟩ := Option.map_eq_some_iff.mp hfound
      left
      simp [Bucket.isEmpty, Bucket.push]
    next hne =>
      rcases h.filled hfound with hfilled | hmem
      · exact Or.inl hfilled
      · exact Or.inr ((List.mem_cons.mp hmem).resolve_left hne)
  · intro key hkey
    obtain ⟨old, hold⟩ := h.opened key (List.mem_cons_of_mem _ hkey)
    rw [hget, hold]
    split
    · exact ⟨_, rfl⟩
    · exact ⟨_, rfl⟩

theorem joinChunks_ok {ix : EntityIndex} (entry : ChunkEntry) {ids : List Nat}
    (hlinked : Linked (·.slot) ix.chunkEntries (Function.update ix.chunkRefList entry.slot []))
    (hnodup : ids.Nodup)
    (hfilled : ∀ {chunk : Nat} {bucket : Bucket ChunkEntry}, ix.chunks[chunk]? = some bucket →
      bucket.isEmpty = false ∨ chunk ∈ ids)
    (hopened : ∀ chunk ∈ ids, ∃ bucket, ix.chunks[chunk]? = some bucket) :
    ∃ refs ix', ids.mapM (joinChunk entry) ix = .ok refs ix' ∧
      JoiningChunks ix ix' entry ids [] refs := by
  have hstart : JoiningChunks ix ix entry ids ids [] := by
    constructor
    · rfl
    · exact hlinked
    · rfl
    · exact hnodup
    · intro chunk found hfound
      exact Or.inl hfound
    · exact hfilled
    · exact hopened
  exact mapM_of_step
    (motive := fun pending joined state => JoiningChunks ix state entry ids pending joined)
    joinChunk_ok hstart

/-! ## Tags -/

theorem tagSlots_join {ix ix' : EntityIndex} {slot tag : Nat}
    (h : ix'.tags = ix.tags.modify tag (·.push slot)) (htag : tag < ix.tags.size) (key : Nat) :
    ix'.tagSlots key =
      if key = tag then (ix.tagSlots key).push slot else ix.tagSlots key := by
  rw [tagSlots_eq, tagSlots_eq, h, Array.getElem?_modify]
  by_cases heq : key = tag
  · rw [if_pos heq.symm, if_pos heq, Array.getElem?_eq_getElem (heq ▸ htag)]
    rfl
  · rw [if_neg (Ne.symm heq), if_neg heq]

/-- Of the tags in `ids`, the slot has joined those of `joined` and has yet to join `pending`. -/
structure JoiningTags (start ix : EntityIndex) (slot : Nat) (ids pending : List Nat)
    (joined : List BackRef) : Prop where
  frame : ix = { start with tags := ix.tags }
  linked : Linked id ix.tagSlots (Function.update start.tagRefList slot joined)
  order : joined.map (·.bucket) ++ pending = ids
  nodup : ids.Nodup
  size : ix.tags.size = start.tags.size

theorem joinTag_ok {start ix : EntityIndex} {slot tag : Nat} {ids pending : List Nat}
    {joined : List BackRef} (h : JoiningTags start ix slot ids (tag :: pending) joined)
    (htag : tag < start.tags.size) :
    ∃ ref ix', joinTag slot tag ix = .ok ref ix' ∧
      JoiningTags start ix' slot ids pending (joined ++ [ref]) := by
  set ix' : EntityIndex := { ix with tags := ix.tags.modify tag (·.push slot) } with hix'
  have hslots : ∀ key, ix'.tagSlots key =
      if key = tag then (ix.tagSlots key).push slot else ix.tagSlots key :=
    tagSlots_join rfl (by rwa [h.size])
  have hnew : tag ∉ joined.map (·.bucket) := by
    intro hmem
    have hnodup := h.nodup
    rw [← h.order] at hnodup
    exact (List.nodup_append.mp hnodup).2.2 tag hmem tag List.mem_cons_self rfl
  refine ⟨⟨tag, (ix.tagSlots tag).size⟩, ix', rfl, ?_⟩
  constructor
  · rw [hix', h.frame]
  · have hjoined : Linked.Joined ix.tagSlots ix'.tagSlots
        (Function.update start.tagRefList slot joined)
        (Function.update start.tagRefList slot (joined ++ [⟨tag, (ix.tagSlots tag).size⟩]))
        slot tag slot := by
      constructor
      · rwa [Function.update_self]
      · exact hslots
      · rw [Function.update_self, Function.update_self]
      · intro other hne
        rw [Function.update_of_ne hne, Function.update_of_ne hne]
    exact h.linked.join rfl hjoined
  · rw [← h.order, List.map_append, List.append_assoc]
    rfl
  · exact h.nodup
  · rw [hix', Array.size_modify, h.size]

theorem joinTags_ok {ix : EntityIndex} {slot : Nat} {ids : List Nat}
    (hlinked : Linked id ix.tagSlots (Function.update ix.tagRefList slot []))
    (hnodup : ids.Nodup) (hsize : ∀ tag ∈ ids, tag < ix.tags.size) :
    ∃ refs ix', ids.mapM (joinTag slot) ix = .ok refs ix' ∧
      JoiningTags ix ix' slot ids [] refs := by
  have hstart : JoiningTags ix ix slot ids ids [] := ⟨rfl, hlinked, rfl, hnodup, rfl⟩
  refine mapM_of_step
    (motive := fun pending joined state => JoiningTags ix state slot ids pending joined) ?_ hstart
  intro tag pending joined state h
  apply joinTag_ok h
  apply hsize
  rw [← h.order]
  exact List.mem_append_right _ List.mem_cons_self

end EntityIndex
end SpriteField
