import SpriteField.Proofs.EntityIndex.Tables
import SpriteField.Proofs.Grid.Span
import SpriteField.Proofs.Refusal

/-!
# Leaving all buckets

An update takes a slot out of its buckets one reference at a time.  In between, the slot counts as
referring to what it has not left yet, and with this reading the tables stay linked.  A chunk's
bucket that becomes empty is dropped, unless it belongs to the span that the slot is about to join.
-/

namespace SpriteField
namespace EntityIndex

/-! ## Chunks -/

theorem chunkWithout_eq (ref : BackRef) (kept : Span) (bucket : Bucket ChunkEntry) :
    chunkWithout ref kept bucket =
      if (bucket.swapPop ref.position).isEmpty && !kept.contains ref.bucket then none
      else some (bucket.swapPop ref.position) := rfl

theorem items_chunkWithout (ref : BackRef) (kept : Span) (bucket : Bucket ChunkEntry) :
    ((chunkWithout ref kept bucket).map (·.items)).getD #[] =
      swapPop bucket.items ref.position := by
  rw [chunkWithout_eq]
  split
  next h =>
    have hempty : (bucket.swapPop ref.position).isEmpty = true := (Bool.and_eq_true_iff.mp h).1
    exact (Array.isEmpty_iff.mp hempty).symm
  next => rfl

theorem chunkWithout_of_contains {ref : BackRef} {kept : Span} (bucket : Bucket ChunkEntry)
    (h : kept.contains ref.bucket = true) :
    chunkWithout ref kept bucket = some (bucket.swapPop ref.position) := by
  rw [chunkWithout_eq, h]
  exact if_neg (by simp)

theorem isEmpty_of_chunkWithout {ref : BackRef} {kept : Span} {bucket bucket' : Bucket ChunkEntry}
    (h : chunkWithout ref kept bucket = some bucket') :
    bucket'.isEmpty = false ∨ kept.contains ref.bucket = true := by
  rw [chunkWithout_eq] at h
  split at h
  next => simp at h
  next hstays =>
    rw [← Option.some.inj h]
    cases hempty : (bucket.swapPop ref.position).isEmpty
    · exact Or.inl rfl
    · cases hkept : kept.contains ref.bucket
      · simp [hempty, hkept] at hstays
      · exact Or.inr rfl

theorem chunkEntries_leave {ix ix' : EntityIndex} {ref : BackRef} {kept : Span}
    (h : ix'.chunks = ix.chunks.alter ref.bucket (·.bind (chunkWithout ref kept))) (key : Nat) :
    ix'.chunkEntries key =
      if key = ref.bucket then swapPop (ix.chunkEntries key) ref.position
      else ix.chunkEntries key := by
  rw [chunkEntries_eq, chunkEntries_eq, h, getElem?_alter_key]
  split
  · cases ix.chunks[key]? with
    | none => rfl
    | some bucket => exact items_chunkWithout ref kept bucket
  · rfl

/-- The slot has left its chunks except for those of `pending`, and `kept` is what it will join. -/
structure LeavingChunks (start ix : EntityIndex) (slot : Nat) (kept : Span)
    (pending : List BackRef) : Prop where
  frame : ix.withoutChunks = start.withoutChunks
  linked : Linked (·.slot) ix.chunkEntries (Function.update ix.chunkRefList slot pending)
  refs : ∀ other, other ≠ slot →
    (ix.chunkRefList other).map (·.bucket) = (start.chunkRefList other).map (·.bucket)
  entries : ∀ chunk, ∀ entry ∈ ix.chunkEntries chunk, entry ∈ start.chunkEntries chunk
  filled : ∀ {chunk : Nat} {bucket : Bucket ChunkEntry}, ix.chunks[chunk]? = some bucket →
    bucket.isEmpty = false ∨ chunk ∈ kept.ids
  opened : ∀ chunk ∈ kept.ids, ∃ bucket, ix.chunks[chunk]? = some bucket
  known : ∀ ref ∈ pending, kept.contains ref.bucket = true ↔ ref.bucket ∈ kept.ids

namespace LeavingChunks

variable {start ix ix' : EntityIndex} {slot : Nat} {kept : Span} {ref : BackRef}
  {rest : List BackRef}

theorem step (h : LeavingChunks start ix slot kept (ref :: rest))
    (hframe : ix'.withoutChunks = ix.withoutChunks)
    (hchunks : ix'.chunks = ix.chunks.alter ref.bucket (·.bind (chunkWithout ref kept)))
    (hrefs : ∀ other, other ≠ slot → ix'.chunkRefList other = (ix.chunkRefList other).map
      (·.follow ref.bucket ⟨(ix.chunkEntries ref.bucket).size - 1, ref.position⟩)) :
    LeavingChunks start ix' slot kept rest := by
  have hget : ∀ key, ix'.chunks[key]? =
      if key = ref.bucket then (ix.chunks[key]?).bind (chunkWithout ref kept)
      else ix.chunks[key]? := by
    intro key
    rw [hchunks, getElem?_alter_key]
  have hentries := chunkEntries_leave hchunks
  have hleft : Linked.Left ix.chunkEntries ix'.chunkEntries
      (Function.update ix.chunkRefList slot (ref :: rest))
      (Function.update ix'.chunkRefList slot rest) slot ref rest := by
    refine ⟨Function.update_self .., Function.update_self .., hentries, ?_⟩
    intro other hne
    rw [Function.update_of_ne hne, Function.update_of_ne hne, hrefs other hne]
  have hlt : ref.position < (ix.chunkEntries ref.bucket).size := h.linked.position_lt hleft.mem
  constructor
  · exact hframe.trans h.frame
  · exact h.linked.leave hleft
  · intro other hne
    have hbuckets := hleft.map_bucket hne
    rw [Function.update_of_ne hne, Function.update_of_ne hne] at hbuckets
    rw [hbuckets, h.refs other hne]
  · intro chunk entry hentry
    rw [hentries] at hentry
    split at hentry
    next heq => exact h.entries chunk entry (mem_of_mem_swapPop (heq ▸ hlt) hentry)
    next => exact h.entries chunk entry hentry
  · intro chunk bucket hbucket
    rw [hget] at hbucket
    split at hbucket
    next heq =>
      obtain ⟨bucket', -, hwithout⟩ := Option.bind_eq_some_iff.mp hbucket
      rcases isEmpty_of_chunkWithout hwithout with hfilled | hkept
      · exact Or.inl hfilled
      · rw [heq]
        exact Or.inr ((h.known ref List.mem_cons_self).mp hkept)
    next => exact h.filled hbucket
  · intro chunk hchunk
    obtain ⟨bucket, hbucket⟩ := h.opened chunk hchunk
    rw [hget]
    split
    next heq =>
      have hkept : kept.contains ref.bucket = true :=
        (h.known ref List.mem_cons_self).mpr (heq ▸ hchunk)
      rw [hbucket, Option.bind_some, chunkWithout_of_contains bucket hkept]
      exact ⟨_, rfl⟩
    next => exact ⟨bucket, hbucket⟩
  · intro ref' href'
    exact h.known ref' (List.mem_cons_of_mem _ href')

theorem exists_bucket (h : LeavingChunks start ix slot kept (ref :: rest)) :
    ∃ bucket, ix.chunks[ref.bucket]? = some bucket ∧
      ix.chunkEntries ref.bucket = bucket.items ∧ ref.position < bucket.size := by
  have hmem : ref ∈ Function.update ix.chunkRefList slot (ref :: rest) slot := by
    simp
  have hlt := h.linked.position_lt hmem
  rw [chunkEntries_eq] at hlt
  cases hbucket : ix.chunks[ref.bucket]? with
  | none => simp [hbucket] at hlt
  | some bucket =>
    refine ⟨bucket, rfl, by rw [chunkEntries_eq, hbucket]; rfl, ?_⟩
    rw [hbucket] at hlt
    exact hlt

end LeavingChunks

theorem repointChunk_ok (ix : EntityIndex) {slot chunk : Nat} (move : Relocation)
    (hmem : ⟨chunk, move.source⟩ ∈ ix.chunkRefList slot)
    (hnodup : ((ix.chunkRefList slot).map (·.bucket)).Nodup) :
    ∃ ix', repointChunk slot chunk move ix = .ok ⟨⟩ ix' ∧
      ix'.withoutChunks = ix.withoutChunks ∧ ix'.chunks = ix.chunks ∧
      ix'.chunkRefList slot = (ix.chunkRefList slot).map (·.follow chunk move) ∧
      ∀ other, other ≠ slot → ix'.chunkRefList other = ix.chunkRefList other := by
  obtain ⟨i, hi, hrefs⟩ := exists_refTo? hmem hnodup
  obtain ⟨s, hs⟩ := slots_of_mem_chunkRefList hmem
  refine ⟨countFixup (ix.modifySlot slot fun s =>
    { s with chunkRefs := s.chunkRefs.modify i (withPosition move.target) }), ?_, ?_, rfl, ?_, ?_⟩
  · unfold repointChunk
    rw [get_bind, hi]
    rfl
  · rw [withoutChunks_countFixup]
    exact withoutChunks_modifySlot ix slot _ fun _ => rfl
  · change (ix.modifySlot slot _).chunkRefList slot = (ix.chunkRefs slot).toList.map _
    rw [chunkRefList_eq (by rw [getElem?_modifySlot, if_pos rfl, hs]; rfl), ← hrefs, chunkRefs, hs]
    rfl
  · intro other hne
    exact chunkRefList_modifySlot_of_ne ix hne _

theorem leaveChunk_ok {start ix : EntityIndex} {slot : Nat} {kept : Span} {ref : BackRef}
    {rest : List BackRef} (h : LeavingChunks start ix slot kept (ref :: rest)) :
    ∃ ix', leaveChunk slot kept ref ix = .ok ⟨⟩ ix' ∧ LeavingChunks start ix' slot kept rest := by
  obtain ⟨bucket, hbucket, hitems, hlt⟩ := h.exists_bucket
  obtain ⟨value, hvalue⟩ := Bucket.exists_get_eq_ok hlt
  set ix₁ : EntityIndex :=
    { ix with chunks := ix.chunks.alter ref.bucket (·.bind (chunkWithout ref kept)) } with hix₁
  unfold leaveChunk
  rw [get_bind]
  simp only [hbucket, hvalue]
  -- Unless the last entry is the one that goes, it is moved and its reference has to follow.
  by_cases hlast : ref.position + 1 = bucket.size
  · rw [Bucket.moved_of_last hlast, modify_bind]
    refine ⟨countRemoval ix₁, rfl, h.step rfl rfl ?_⟩
    intro other _
    have hposition : bucket.items.size - 1 = ref.position := by
      change bucket.size - 1 = _
      omega
    rw [hitems, hposition, BackRef.map_follow_self]
    rfl
  · have hnext : ref.position + 1 < bucket.size := by omega
    obtain ⟨moved, hmoved, hlisted, hnodup, hstay⟩ :=
      h.linked.exists_moved (by rw [hitems]; exact hnext)
    rw [hitems] at hmoved hlisted hstay
    obtain ⟨ix₂, hrepoint, hframe, hchunks, hfollow, hother⟩ :=
      repointChunk_ok ix₁ ⟨bucket.size - 1, ref.position⟩ hlisted hnodup
    rw [Bucket.moved_of_lt hnext hmoved, modify_bind]
    refine ⟨countRemoval ix₂, ?_, h.step hframe hchunks ?_⟩
    · dsimp only
      rw [bind_of_ok hrepoint]
      rfl
    · intro other hslot
      rw [hitems]
      by_cases heq : other = moved.slot
      · rw [heq]
        exact hfollow
      · rw [hstay other hslot heq]
        exact hother other heq

/-- The slot without its references to chunks, which are now to be left. -/
def takeChunkRefs (ix : EntityIndex) (slot : Nat) : EntityIndex :=
  ix.modifySlot slot fun s => { s with chunkRefs := #[] }

theorem LeavingChunks.start {ix : EntityIndex} (slot : Nat) {kept : Span}
    (hlinked : Linked (·.slot) ix.chunkEntries ix.chunkRefList)
    (hfilled : ∀ {chunk : Nat} {bucket : Bucket ChunkEntry}, ix.chunks[chunk]? = some bucket →
      bucket.isEmpty = false ∨ chunk ∈ kept.ids)
    (hopened : ∀ chunk ∈ kept.ids, ∃ bucket, ix.chunks[chunk]? = some bucket)
    (hknown : ∀ ref ∈ ix.chunkRefList slot,
      kept.contains ref.bucket = true ↔ ref.bucket ∈ kept.ids) :
    LeavingChunks ix (ix.takeChunkRefs slot) slot kept (ix.chunkRefList slot) := by
  have hother : ∀ other, other ≠ slot →
      (ix.takeChunkRefs slot).chunkRefList other = ix.chunkRefList other :=
    fun other hne => chunkRefList_modifySlot_of_ne ix hne _
  have hrefs : Function.update (ix.takeChunkRefs slot).chunkRefList slot (ix.chunkRefList slot) =
      ix.chunkRefList := by
    funext other
    by_cases heq : other = slot
    · rw [heq, Function.update_self]
    · rw [Function.update_of_ne heq, hother other heq]
  constructor
  · exact withoutChunks_modifySlot ix slot _ fun _ => rfl
  · rw [hrefs]
    exact hlinked
  · intro other hne
    rw [hother other hne]
  · intro chunk entry hentry
    exact hentry
  · exact hfilled
  · exact hopened
  · exact hknown

theorem leaveChunks_ok {ix : EntityIndex} {slot : Nat} {kept : Span}
    (hstart : LeavingChunks ix (ix.takeChunkRefs slot) slot kept (ix.chunkRefList slot)) :
    ∃ ix', leaveChunks slot kept ix = .ok ⟨⟩ ix' ∧ LeavingChunks ix ix' slot kept [] := by
  unfold leaveChunks
  rw [get_bind, modify_bind]
  exact forM_of_step (motive := fun pending state => LeavingChunks ix state slot kept pending)
    leaveChunk_ok hstart

/-! ## Tags -/

theorem tagSlots_leave {ix ix' : EntityIndex} {ref : BackRef}
    (h : ix'.tags = ix.tags.modify ref.bucket (·.swapPop ref.position)) (key : Nat) :
    ix'.tagSlots key =
      if key = ref.bucket then swapPop (ix.tagSlots key) ref.position else ix.tagSlots key := by
  rw [tagSlots_eq, tagSlots_eq, h, Array.getElem?_modify]
  by_cases heq : key = ref.bucket
  · rw [if_pos heq.symm, if_pos heq]
    cases ix.tags[key]? <;> rfl
  · rw [if_neg (Ne.symm heq), if_neg heq]

/-- The slot has left its tags except for those of `pending`. -/
structure LeavingTags (start ix : EntityIndex) (slot : Nat) (pending : List BackRef) : Prop where
  frame : ix.withoutTags = start.withoutTags
  linked : Linked id ix.tagSlots (Function.update ix.tagRefList slot pending)
  refs : ∀ other, other ≠ slot →
    (ix.tagRefList other).map (·.bucket) = (start.tagRefList other).map (·.bucket)
  size : ix.tags.size = start.tags.size

namespace LeavingTags

variable {start ix ix' : EntityIndex} {slot : Nat} {ref : BackRef} {rest : List BackRef}

theorem step (h : LeavingTags start ix slot (ref :: rest))
    (hframe : ix'.withoutTags = ix.withoutTags)
    (htags : ix'.tags = ix.tags.modify ref.bucket (·.swapPop ref.position))
    (hrefs : ∀ other, other ≠ slot → ix'.tagRefList other = (ix.tagRefList other).map
      (·.follow ref.bucket ⟨(ix.tagSlots ref.bucket).size - 1, ref.position⟩)) :
    LeavingTags start ix' slot rest := by
  have hslots := tagSlots_leave htags
  have hleft : Linked.Left ix.tagSlots ix'.tagSlots
      (Function.update ix.tagRefList slot (ref :: rest))
      (Function.update ix'.tagRefList slot rest) slot ref rest := by
    refine ⟨Function.update_self .., Function.update_self .., hslots, ?_⟩
    intro other hne
    rw [Function.update_of_ne hne, Function.update_of_ne hne, hrefs other hne]
  constructor
  · exact hframe.trans h.frame
  · exact h.linked.leave hleft
  · intro other hne
    have hbuckets := hleft.map_bucket hne
    rw [Function.update_of_ne hne, Function.update_of_ne hne] at hbuckets
    rw [hbuckets, h.refs other hne]
  · rw [htags, Array.size_modify, h.size]

theorem exists_bucket (h : LeavingTags start ix slot (ref :: rest)) :
    ∃ bucket, ix.tags[ref.bucket]? = some bucket ∧
      ix.tagSlots ref.bucket = bucket.items ∧ ref.position < bucket.size := by
  have hmem : ref ∈ Function.update ix.tagRefList slot (ref :: rest) slot := by
    simp
  have hlt := h.linked.position_lt hmem
  rw [tagSlots_eq] at hlt
  cases hbucket : ix.tags[ref.bucket]? with
  | none => simp [hbucket] at hlt
  | some bucket =>
    refine ⟨bucket, rfl, by rw [tagSlots_eq, hbucket]; rfl, ?_⟩
    rw [hbucket] at hlt
    exact hlt

end LeavingTags

theorem repointTag_ok (ix : EntityIndex) {slot tag : Nat} (move : Relocation)
    (hmem : ⟨tag, move.source⟩ ∈ ix.tagRefList slot)
    (hnodup : ((ix.tagRefList slot).map (·.bucket)).Nodup) :
    ∃ ix', repointTag slot tag move ix = .ok ⟨⟩ ix' ∧
      ix'.withoutTags = ix.withoutTags ∧ ix'.tags = ix.tags ∧
      ix'.tagRefList slot = (ix.tagRefList slot).map (·.follow tag move) ∧
      ∀ other, other ≠ slot → ix'.tagRefList other = ix.tagRefList other := by
  obtain ⟨i, hi, hrefs⟩ := exists_refTo? hmem hnodup
  obtain ⟨s, hs⟩ := slots_of_mem_tagRefList hmem
  refine ⟨countFixup (ix.modifySlot slot fun s =>
    { s with tagRefs := s.tagRefs.modify i (withPosition move.target) }), ?_, ?_, rfl, ?_, ?_⟩
  · unfold repointTag
    rw [get_bind, hi]
    rfl
  · rw [withoutTags_countFixup]
    exact withoutTags_modifySlot ix slot _ fun _ => rfl
  · change (ix.modifySlot slot _).tagRefList slot = (ix.tagRefs slot).toList.map _
    rw [tagRefList_eq (by rw [getElem?_modifySlot, if_pos rfl, hs]; rfl), ← hrefs, tagRefs, hs]
    rfl
  · intro other hne
    exact tagRefList_modifySlot_of_ne ix hne _

theorem leaveTag_ok {start ix : EntityIndex} {slot : Nat} {ref : BackRef} {rest : List BackRef}
    (h : LeavingTags start ix slot (ref :: rest)) :
    ∃ ix', leaveTag slot ref ix = .ok ⟨⟩ ix' ∧ LeavingTags start ix' slot rest := by
  obtain ⟨bucket, hbucket, hitems, hlt⟩ := h.exists_bucket
  obtain ⟨value, hvalue⟩ := Bucket.exists_get_eq_ok hlt
  set ix₁ : EntityIndex :=
    { ix with tags := ix.tags.modify ref.bucket (·.swapPop ref.position) } with hix₁
  unfold leaveTag
  rw [get_bind]
  simp only [hbucket, hvalue]
  -- Unless the last entry is the one that goes, it is moved and its reference has to follow.
  by_cases hlast : ref.position + 1 = bucket.size
  · rw [Bucket.moved_of_last hlast, modify_bind]
    refine ⟨countRemoval ix₁, rfl, h.step rfl rfl ?_⟩
    intro other _
    have hposition : bucket.items.size - 1 = ref.position := by
      change bucket.size - 1 = _
      omega
    rw [hitems, hposition, BackRef.map_follow_self]
    rfl
  · have hnext : ref.position + 1 < bucket.size := by omega
    obtain ⟨moved, hmoved, hlisted, hnodup, hstay⟩ :=
      h.linked.exists_moved (by rw [hitems]; exact hnext)
    rw [hitems] at hmoved hlisted hstay
    rw [id_eq] at hlisted hnodup
    obtain ⟨ix₂, hrepoint, hframe, htags, hfollow, hother⟩ :=
      repointTag_ok ix₁ ⟨bucket.size - 1, ref.position⟩ hlisted hnodup
    rw [Bucket.moved_of_lt hnext hmoved, modify_bind]
    refine ⟨countRemoval ix₂, ?_, h.step hframe htags ?_⟩
    · dsimp only
      rw [bind_of_ok hrepoint]
      rfl
    · intro other hslot
      rw [hitems]
      by_cases heq : other = moved
      · rw [heq]
        exact hfollow
      · rw [hstay other hslot heq]
        exact hother other heq

/-- The slot without its references to tags, which are now to be left. -/
def takeTagRefs (ix : EntityIndex) (slot : Nat) : EntityIndex :=
  ix.modifySlot slot fun s => { s with tagRefs := #[] }

theorem LeavingTags.start {ix : EntityIndex} (slot : Nat)
    (hlinked : Linked id ix.tagSlots ix.tagRefList) :
    LeavingTags ix (ix.takeTagRefs slot) slot (ix.tagRefList slot) := by
  have hother : ∀ other, other ≠ slot →
      (ix.takeTagRefs slot).tagRefList other = ix.tagRefList other :=
    fun other hne => tagRefList_modifySlot_of_ne ix hne _
  have hrefs : Function.update (ix.takeTagRefs slot).tagRefList slot (ix.tagRefList slot) =
      ix.tagRefList := by
    funext other
    by_cases heq : other = slot
    · rw [heq, Function.update_self]
    · rw [Function.update_of_ne heq, hother other heq]
  constructor
  · exact withoutTags_modifySlot ix slot _ fun _ => rfl
  · rw [hrefs]
    exact hlinked
  · intro other hne
    rw [hother other hne]
  · rfl

theorem leaveTags_ok {ix : EntityIndex} (slot : Nat)
    (hlinked : Linked id ix.tagSlots ix.tagRefList) :
    ∃ ix', leaveTags slot ix = .ok ⟨⟩ ix' ∧ LeavingTags ix ix' slot [] := by
  unfold leaveTags
  rw [get_bind, modify_bind]
  exact forM_of_step (motive := fun pending state => LeavingTags ix state slot pending)
    leaveTag_ok (LeavingTags.start slot hlinked)

end EntityIndex
end SpriteField
