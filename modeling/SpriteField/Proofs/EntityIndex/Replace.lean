import SpriteField.Proofs.EntityIndex.Consistent
import SpriteField.Proofs.EntityIndex.Join
import SpriteField.Proofs.EntityIndex.Leave

/-!
# Replacing a collider

The slot leaves every bucket of its old collider and joins those of the new one.  Halfway it is in
no bucket at all, the chunks that it is about to join are kept open, and every other slot is in the
buckets that it was in before.
-/

namespace SpriteField
namespace EntityIndex

/-- All of the index but its memberships and the counters. -/
def withoutMemberships (ix : EntityIndex) : EntityIndex :=
  ix.withoutChunks.withoutTags

theorem withoutMemberships_of_withoutChunks {ix ix' : EntityIndex}
    (h : ix'.withoutChunks = ix.withoutChunks) : ix'.withoutMemberships = ix.withoutMemberships :=
  congrArg withoutTags h

theorem withoutMemberships_of_withoutTags {ix ix' : EntityIndex}
    (h : ix'.withoutTags = ix.withoutTags) : ix'.withoutMemberships = ix.withoutMemberships := by
  have hswap : ∀ ix : EntityIndex, ix.withoutMemberships = ix.withoutTags.withoutChunks := by
    intro ix
    simp [withoutMemberships, withoutTags, withoutChunks, Function.comp_def,
      Slot.withoutTagRefs, Slot.withoutChunkRefs]
  rw [hswap, hswap, h]

@[simp] theorem getElem?_withoutMemberships (ix : EntityIndex) (i : Nat) :
    ix.withoutMemberships.slots[i]? =
      (ix.slots[i]?).map fun s => { s with chunkRefs := #[], tagRefs := #[] } := by
  simp [withoutMemberships, withoutTags, withoutChunks, Function.comp_def,
    Slot.withoutTagRefs, Slot.withoutChunkRefs]

theorem entities_withoutMemberships (ix : EntityIndex) :
    ix.withoutMemberships.entities = ix.entities := by
  apply List.ext_getElem?
  intro i
  rw [entities, entities, List.getElem?_map, List.getElem?_map, Array.getElem?_toList,
    Array.getElem?_toList, getElem?_withoutMemberships, Option.map_map]
  rfl

theorem withoutMemberships_modifySlot {ix ix' : EntityIndex} (slot : Nat)
    (change change' : Slot → Slot) (h : ix'.withoutMemberships = ix.withoutMemberships)
    (hchange : ∀ s s' : Slot, { s with chunkRefs := #[], tagRefs := #[] } =
        ({ s' with chunkRefs := #[], tagRefs := #[] } : Slot) →
      { change s with chunkRefs := #[], tagRefs := #[] } =
        ({ change' s' with chunkRefs := #[], tagRefs := #[] } : Slot)) :
    (ix'.modifySlot slot change).withoutMemberships =
      (ix.modifySlot slot change').withoutMemberships := by
  have hslots : (ix'.modifySlot slot change).withoutMemberships.slots =
      (ix.modifySlot slot change').withoutMemberships.slots := by
    apply Array.ext_getElem?
    intro i
    have hi := congrArg (fun ix => ix.slots[i]?) h
    simp only [getElem?_withoutMemberships, getElem?_modifySlot] at hi ⊢
    split
    · cases hs : ix.slots[i]? with
      | none =>
        rw [hs] at hi
        rw [Option.map_eq_none_iff.mp hi]
        rfl
      | some s =>
        rw [hs] at hi
        obtain ⟨s', hs', heq⟩ := Option.map_eq_some_iff.mp hi
        rw [hs']
        exact congrArg some (hchange s' s heq)
    · exact hi
  have hrest := congrArg (fun ix => { ix with slots := #[] }) h
  have heta : ∀ a b : EntityIndex, a.slots = b.slots →
      { a with slots := #[] } = { b with slots := #[] } → a = b := by
    rintro ⟨⟩ ⟨⟩ hslots hrest
    simp only [EntityIndex.mk.injEq] at hslots hrest ⊢
    exact ⟨hrest.1, hslots, hrest.2.2⟩
  exact heta _ _ hslots hrest

/-! ## Opening the chunks to be joined -/

theorem getElem?_openChunks (ids : List Nat) (chunks : Std.ExtTreeMap Nat (Bucket ChunkEntry))
    (chunk : Nat) :
    (ids.foldl openChunk chunks)[chunk]? =
      if chunk ∈ ids then some (chunks[chunk]?.getD .empty) else chunks[chunk]? := by
  induction ids generalizing chunks with
  | nil => simp
  | cons id ids ih =>
    rw [List.foldl_cons, ih, openChunk, getElem?_insertIfNew_key]
    by_cases heq : chunk = id
    · simp [heq]
    · by_cases hmem : chunk ∈ ids
      · simp [heq, hmem]
      · simp [heq, hmem]

def openChunks (ix : EntityIndex) (ids : List Nat) : EntityIndex :=
  { ix with chunks := ids.foldl openChunk ix.chunks }

@[simp] theorem chunkEntries_openChunks (ix : EntityIndex) (ids : List Nat) :
    (ix.openChunks ids).chunkEntries = ix.chunkEntries := by
  funext chunk
  rw [chunkEntries_eq, chunkEntries_eq, openChunks, getElem?_openChunks]
  split
  · cases ix.chunks[chunk]? <;> rfl
  · rfl

theorem filled_openChunks {ix : EntityIndex} (h : ix.Consistent) {ids : List Nat} {chunk : Nat}
    {bucket : Bucket ChunkEntry} (hbucket : (ix.openChunks ids).chunks[chunk]? = some bucket) :
    bucket.isEmpty = false ∨ chunk ∈ ids := by
  rw [openChunks, getElem?_openChunks] at hbucket
  split at hbucket
  next hmem => exact Or.inr hmem
  next => exact Or.inl (h.filled hbucket)

theorem exists_bucket_openChunks (ix : EntityIndex) {ids : List Nat} {chunk : Nat}
    (hchunk : chunk ∈ ids) : ∃ bucket, (ix.openChunks ids).chunks[chunk]? = some bucket := by
  rw [openChunks, getElem?_openChunks, if_pos hchunk]
  exact ⟨_, rfl⟩

/-! ## Halfway -/

/-- The slot has left all of its buckets, and `kept` is the span that it is about to join. -/
structure Vacated (ix left : EntityIndex) (slot : Nat) (kept : Span) : Prop where
  frame : left.withoutMemberships = ix.withoutMemberships
  chunks : Linked (·.slot) left.chunkEntries (Function.update left.chunkRefList slot [])
  tags : Linked id left.tagSlots (Function.update left.tagRefList slot [])
  chunkRefs : ∀ other, other ≠ slot →
    (left.chunkRefList other).map (·.bucket) = (ix.chunkRefList other).map (·.bucket)
  tagRefs : ∀ other, other ≠ slot →
    (left.tagRefList other).map (·.bucket) = (ix.tagRefList other).map (·.bucket)
  entries : ∀ chunk, ∀ entry ∈ left.chunkEntries chunk,
    entry ∈ ix.chunkEntries chunk ∧ entry.slot ≠ slot
  filled : ∀ {chunk : Nat} {bucket : Bucket ChunkEntry}, left.chunks[chunk]? = some bucket →
    bucket.isEmpty = false ∨ chunk ∈ kept.ids
  opened : ∀ chunk ∈ kept.ids, ∃ bucket, left.chunks[chunk]? = some bucket
  tagCount : left.tags.size = ix.tags.size

theorem leavingChunks_openChunks {ix : EntityIndex} (h : ix.Consistent) (slot : Nat)
    (bounds : Rect) :
    LeavingChunks (ix.openChunks (Span.ofRect ix.grid bounds).ids)
      ((ix.openChunks (Span.ofRect ix.grid bounds).ids).takeChunkRefs slot) slot
      (Span.ofRect ix.grid bounds)
      ((ix.openChunks (Span.ofRect ix.grid bounds).ids).chunkRefList slot) := by
  apply LeavingChunks.start
  · rw [chunkEntries_openChunks]
    exact h.chunks
  · exact filled_openChunks h
  · exact fun _ => exists_bucket_openChunks ix
  · intro ref href
    exact Span.contains_iff_mem_ids h.grid (h.bucket_lt href)

theorem linked_tags_of_withoutChunks {ix leftChunks : EntityIndex} (h : ix.Consistent)
    {ids : List Nat} (hframe : leftChunks.withoutChunks = (ix.openChunks ids).withoutChunks) :
    Linked id leftChunks.tagSlots leftChunks.tagRefList := by
  rw [tagRefList_of_withoutChunks hframe, tagSlots_of_withoutChunks hframe]
  exact h.tags

theorem leave_ok {ix : EntityIndex} (h : ix.Consistent) (slot : Nat) (bounds : Rect) :
    ∃ leftChunks left,
      leaveChunks slot (Span.ofRect ix.grid bounds)
        (ix.openChunks (Span.ofRect ix.grid bounds).ids) = .ok ⟨⟩ leftChunks ∧
      leaveTags slot leftChunks = .ok ⟨⟩ left ∧
      Vacated ix left slot (Span.ofRect ix.grid bounds) := by
  obtain ⟨leftChunks, hleaveChunks, hc⟩ := leaveChunks_ok (leavingChunks_openChunks h slot bounds)
  have htagRefs : leftChunks.tagRefList = ix.tagRefList := tagRefList_of_withoutChunks hc.frame
  have htags := linked_tags_of_withoutChunks h hc.frame
  obtain ⟨left, hleaveTags, ht⟩ := leaveTags_ok slot htags
  have hleftEntries := chunkEntries_of_withoutTags ht.frame
  have hleftRefs := chunkRefList_of_withoutTags ht.frame
  have hleftChunks := chunks_of_withoutTags ht.frame
  refine ⟨leftChunks, left, hleaveChunks, hleaveTags, ?_⟩
  constructor
  · exact (withoutMemberships_of_withoutTags ht.frame).trans
      (withoutMemberships_of_withoutChunks hc.frame)
  · rw [hleftEntries, hleftRefs]
    exact hc.linked
  · exact ht.linked
  · intro other hne
    rw [hleftRefs]
    exact hc.refs other hne
  · intro other hne
    rw [ht.refs other hne, htagRefs]
  · intro chunk entry hentry
    rw [hleftEntries] at hentry
    have hold := hc.entries chunk entry hentry
    rw [chunkEntries_openChunks] at hold
    refine ⟨hold, ?_⟩
    -- An entry of the slot would be listed among its references, of which none is left.
    intro heq
    obtain ⟨position, hposition⟩ := Array.mem_iff_getElem?.mp hentry
    have hlisted := hc.linked.listed hposition
    simp [heq] at hlisted
  · rw [hleftChunks]
    exact hc.filled
  · rw [hleftChunks]
    exact hc.opened
  · rw [ht.size]
    exact congrArg (·.tags.size) hc.frame

/-! ## The new collider -/

def withCollider (ix : EntityIndex) (slot : Nat) (collider : Collider) : EntityIndex :=
  { ix.modifySlot slot fun s => s.withEntity { s.entity with collider } with stale := true }

/-- The last step of an update, once all references are known. -/
def settle (ix : EntityIndex) (slot : Nat) (collider : Collider)
    (chunkRefs tagRefs : List BackRef) : EntityIndex :=
  let ix := ix.modifySlot slot fun s =>
    { s.withEntity { s.entity with collider } with
      chunkRefs := chunkRefs.toArray, tagRefs := tagRefs.toArray }
  { ix with
    stale := true
    counters.colliderUpdates := ix.counters.colliderUpdates.increment 1 }

theorem exists_slot_of_frame {ix ix' : EntityIndex}
    (h : ix'.withoutMemberships = ix.withoutMemberships) {i : Nat} {s : Slot}
    (hs : ix.slots[i]? = some s) : ∃ s', ix'.slots[i]? = some s' ∧ s'.entity = s.entity := by
  have hi := congrArg (fun ix => ix.slots[i]?) h
  simp only [getElem?_withoutMemberships, hs, Option.map_some] at hi
  obtain ⟨s', hs', heq⟩ := Option.map_eq_some_iff.mp hi
  exact ⟨s', hs', (Slot.mk.inj heq).1⟩

theorem entity_withCollider {ix : EntityIndex} {slot i : Nat} {collider : Collider} {s : Slot}
    (hs : (ix.withCollider slot collider).slots[i]? = some s) :
    ∃ old, ix.slots[i]? = some old ∧
      s.entity = if slot = i then { old.entity with collider } else old.entity := by
  change (ix.modifySlot slot _).slots[i]? = some s at hs
  rw [getElem?_modifySlot] at hs
  split at hs
  next heq =>
    obtain ⟨old, hold, rfl⟩ := Option.map_eq_some_iff.mp hs
    exact ⟨old, hold, (if_pos heq).symm⟩
  next hne => exact ⟨s, hs, (if_neg hne).symm⟩

section Settle

variable {ix left joined final : EntityIndex} {slot : Nat} {s : Slot} {collider : Collider}
  {chunkRefs tagRefs : List BackRef}

theorem withoutMemberships_settle (hleft : left.withoutMemberships = ix.withoutMemberships)
    (hjoined : joined = { left with chunks := joined.chunks })
    (hfinal : final = { joined with tags := final.tags }) :
    (final.settle slot collider chunkRefs tagRefs).withoutMemberships =
      (ix.withCollider slot collider).withoutMemberships := by
  have hslots : final.withoutMemberships = ix.withoutMemberships := by
    rw [hfinal, hjoined, ← hleft]
    rfl
  have hmodified := withoutMemberships_modifySlot slot
    (fun s => { s.withEntity { s.entity with collider } with
      chunkRefs := chunkRefs.toArray, tagRefs := tagRefs.toArray })
    (fun s => s.withEntity { s.entity with collider }) hslots (by
      intro s s' heq
      have hentity := (Slot.mk.inj heq).1
      simp only [Slot.withEntity, hentity])
  exact congrArg (fun ix => { ix with stale := true }) hmodified

theorem slots_settle (ix : EntityIndex) {s : Slot} (hs : ix.slots[slot]? = some s) :
    (ix.settle slot collider chunkRefs tagRefs).slots[slot]? =
      some { s.withEntity { s.entity with collider } with
        chunkRefs := chunkRefs.toArray, tagRefs := tagRefs.toArray } := by
  change (ix.modifySlot slot _).slots[slot]? = _
  rw [getElem?_modifySlot, if_pos rfl, hs]
  rfl

theorem chunkRefList_settle (ix : EntityIndex) {s : Slot} (hs : ix.slots[slot]? = some s) :
    (ix.settle slot collider chunkRefs tagRefs).chunkRefList =
      Function.update ix.chunkRefList slot chunkRefs := by
  funext other
  by_cases heq : other = slot
  · rw [heq, Function.update_self, chunkRefList_eq (slots_settle ix hs)]
  · rw [Function.update_of_ne heq]
    exact chunkRefList_modifySlot_of_ne ix heq _

theorem tagRefList_settle (ix : EntityIndex) {s : Slot} (hs : ix.slots[slot]? = some s) :
    (ix.settle slot collider chunkRefs tagRefs).tagRefList =
      Function.update ix.tagRefList slot tagRefs := by
  funext other
  by_cases heq : other = slot
  · rw [heq, Function.update_self, tagRefList_eq (slots_settle ix hs)]
  · rw [Function.update_of_ne heq]
    exact tagRefList_modifySlot_of_ne ix heq _

/-- The two tables of an index and the references that name their places. -/
structure Rejoined (ix ix' : EntityIndex) (slot : Nat) (collider : Collider) : Prop where
  frame : ix'.withoutMemberships = (ix.withCollider slot collider).withoutMemberships
  chunks : Linked (·.slot) ix'.chunkEntries ix'.chunkRefList
  tags : Linked id ix'.tagSlots ix'.tagRefList
  chunkRefs : ∀ other, (ix'.chunkRefList other).map (·.bucket) =
    if slot = other then (Span.ofRect ix.grid collider.bounds).ids
    else (ix.chunkRefList other).map (·.bucket)
  tagRefs : ∀ other, (ix'.tagRefList other).map (·.bucket) =
    if slot = other then collider.tags.toList else (ix.tagRefList other).map (·.bucket)
  entries : ∀ chunk, ∀ entry ∈ ix'.chunkEntries chunk,
    (entry ∈ ix.chunkEntries chunk ∧ entry.slot ≠ slot) ∨
      entry = .ofCollider ix.grid slot collider
  filled : ∀ {chunk : Nat} {bucket : Bucket ChunkEntry}, ix'.chunks[chunk]? = some bucket →
    bucket.isEmpty = false
  tagCount : ix'.tags.size = ix.tags.size

theorem Rejoined.slot_before {ix' : EntityIndex} (hjoined : Rejoined ix ix' slot collider) {i : Nat}
    {s' : Slot} (hs' : ix'.slots[i]? = some s') : ∃ old, ix.slots[i]? = some old ∧
      s'.entity = if slot = i then { old.entity with collider } else old.entity := by
  obtain ⟨t, ht, hentity⟩ := exists_slot_of_frame hjoined.frame.symm hs'
  rw [← hentity]
  exact entity_withCollider ht

theorem Rejoined.slot_after {ix' : EntityIndex} (hjoined : Rejoined ix ix' slot collider) {i : Nat}
    {old : Slot} (hold : ix.slots[i]? = some old) : ∃ s', ix'.slots[i]? = some s' ∧
      s'.entity = if slot = i then { old.entity with collider } else old.entity := by
  have hnew : ∃ t, (ix.withCollider slot collider).slots[i]? = some t := by
    change ∃ t, (ix.modifySlot slot _).slots[i]? = some t
    rw [getElem?_modifySlot, hold]
    split
    · exact ⟨_, rfl⟩
    · exact ⟨_, rfl⟩
  obtain ⟨t, ht⟩ := hnew
  obtain ⟨s', hs', -⟩ := exists_slot_of_frame hjoined.frame ht
  obtain ⟨old', hold', hentity⟩ := hjoined.slot_before hs'
  rw [hold] at hold'
  rw [← Option.some.inj hold'] at hentity
  exact ⟨s', hs', hentity⟩

theorem Rejoined.id_eq {ix' : EntityIndex} (hjoined : Rejoined ix ix' slot collider)
    (hs : ix.slots[slot]? = some s) (hid : collider.id = s.entity.id) (i : Nat) :
    (ix'.slots[i]?).map (·.entity.id) = (ix.slots[i]?).map (·.entity.id) := by
  cases hold : ix.slots[i]? with
  | none =>
    cases hs' : ix'.slots[i]? with
    | none => rfl
    | some s' =>
      obtain ⟨old, hsome, -⟩ := hjoined.slot_before hs'
      rw [hold] at hsome
      cases hsome
  | some old =>
    obtain ⟨s', hs', hentity⟩ := hjoined.slot_after hold
    rw [hs', Option.map_some, Option.map_some, hentity]
    split
    next heq =>
      rw [← heq, hs] at hold
      rw [← Option.some.inj hold]
      exact congrArg some hid
    next => rfl

theorem Rejoined.consistent (h : ix.Consistent) {ix' : EntityIndex}
    (hjoined : Rejoined ix ix' slot collider) (hs : ix.slots[slot]? = some s)
    (hid : collider.id = s.entity.id) (hvalid : collider.bounds.isValid = true) :
    ix'.Consistent := by
  have hgrid : ix'.grid = ix.grid := (EntityIndex.mk.inj hjoined.frame).1
  have hslotOf : ix'.slotOf = ix.slotOf := (EntityIndex.mk.inj hjoined.frame).2.2.1
  constructor
  · rw [hgrid]
    exact h.grid
  · intro id i
    rw [hslotOf, h.slotOf_iff, ← Option.map_eq_some_iff, ← Option.map_eq_some_iff,
      hjoined.id_eq hs hid]
  · intro i s' hs'
    obtain ⟨old, hold, hentity⟩ := hjoined.slot_before hs'
    rw [hentity]
    split
    · exact hvalid
    · exact h.bounds hold
  · intro i s' hs'
    obtain ⟨old, hold, hentity⟩ := hjoined.slot_before hs'
    rw [← chunkRefList_eq hs', hjoined.chunkRefs, hgrid, hentity]
    split
    · rfl
    · exact h.chunkRefList_bucket hold
  · intro i s' hs'
    obtain ⟨old, hold, hentity⟩ := hjoined.slot_before hs'
    rw [← tagRefList_eq hs', hjoined.tagRefs, hentity]
    split
    · rfl
    · exact h.tagRefList_bucket hold
  · exact hjoined.chunks
  · exact hjoined.tags
  · intro chunk entry hentry
    rw [hgrid]
    rcases hjoined.entries chunk entry hentry with ⟨hold, hne⟩ | rfl
    · obtain ⟨old, hslot, heq⟩ := h.current chunk entry hold
      obtain ⟨s', hs', hentity⟩ := hjoined.slot_after hslot
      rw [if_neg (Ne.symm hne)] at hentity
      exact ⟨s', hs', by rw [hentity]; exact heq⟩
    · obtain ⟨s', hs', hentity⟩ := hjoined.slot_after hs
      rw [if_pos rfl] at hentity
      exact ⟨s', hs', by rw [hentity]; rfl⟩
  · exact hjoined.filled
  · rw [hjoined.tagCount, h.tagCount]

end Settle

theorem rejoined_settle {ix left joined final : EntityIndex} {slot : Nat} {s : Slot}
    {collider : Collider} {chunkRefs tagRefs : List BackRef} (hs : ix.slots[slot]? = some s)
    (hleft : Vacated ix left slot (Span.ofRect ix.grid collider.bounds))
    (hchunks : JoiningChunks left joined (.ofCollider ix.grid slot collider)
      (Span.ofRect ix.grid collider.bounds).ids [] chunkRefs)
    (htags : JoiningTags joined final slot collider.tags.toList [] tagRefs) :
    Rejoined ix (final.settle slot collider chunkRefs tagRefs) slot collider := by
  have hfinalRefs : final.chunkRefList = left.chunkRefList := by
    rw [htags.frame, hchunks.frame]
    rfl
  have hfinalTagRefs : final.tagRefList = left.tagRefList := by
    rw [htags.frame, hchunks.frame]
    rfl
  have hjoinedTagRefs : joined.tagRefList = left.tagRefList := by
    rw [hchunks.frame]
    rfl
  have hfinalEntries : final.chunkEntries = joined.chunkEntries := by
    rw [htags.frame]
    rfl
  obtain ⟨t, ht, -⟩ := exists_slot_of_frame hleft.frame hs
  have hfinalSlot : final.slots[slot]? = some t := by
    rw [htags.frame, hchunks.frame]
    exact ht
  constructor
  · exact withoutMemberships_settle hleft.frame hchunks.frame htags.frame
  · rw [chunkRefList_settle final hfinalSlot, hfinalRefs]
    change Linked _ final.chunkEntries _
    rw [hfinalEntries]
    exact hchunks.linked
  · rw [tagRefList_settle final hfinalSlot, hfinalTagRefs, ← hjoinedTagRefs]
    exact htags.linked
  · intro other
    rw [chunkRefList_settle final hfinalSlot, hfinalRefs]
    split
    next heq =>
      rw [← heq, Function.update_self, ← hchunks.order, List.append_nil]
    next hne =>
      rw [Function.update_of_ne (Ne.symm hne)]
      exact hleft.chunkRefs other (Ne.symm hne)
  · intro other
    rw [tagRefList_settle final hfinalSlot, hfinalTagRefs]
    split
    next heq =>
      rw [← heq, Function.update_self, ← htags.order, List.append_nil]
    next hne =>
      rw [Function.update_of_ne (Ne.symm hne)]
      exact hleft.tagRefs other (Ne.symm hne)
  · intro chunk entry hentry
    change entry ∈ final.chunkEntries chunk at hentry
    rw [hfinalEntries] at hentry
    exact (hchunks.entries chunk entry hentry).imp_left (hleft.entries chunk entry)
  · intro chunk bucket hbucket
    change final.chunks[chunk]? = some bucket at hbucket
    have hframe : final.chunks = joined.chunks := by rw [htags.frame]
    rw [hframe] at hbucket
    exact (hchunks.filled hbucket).resolve_right (by simp)
  · change final.tags.size = ix.tags.size
    rw [htags.size, ← hleft.tagCount, hchunks.frame]

/-- Replacing the collider of a slot is never refused, and it changes nothing but that collider, the
memberships and the counters. -/
theorem replaceCollider_ok {ix : EntityIndex} (h : ix.Consistent) {slot : Nat} {s : Slot}
    (hs : ix.slots[slot]? = some s) {collider : Collider} (hid : collider.id = s.entity.id)
    (hvalid : collider.bounds.isValid = true) :
    ∃ ix', replaceCollider slot collider ix = .ok ⟨⟩ ix' ∧ ix'.Consistent ∧
      ix'.withoutMemberships = (ix.withCollider slot collider).withoutMemberships := by
  obtain ⟨leftChunks, left, hleaveChunks, hleaveTags, hleft⟩ := leave_ok h slot collider.bounds
  obtain ⟨chunkRefs, joined, hjoinChunks, hjoined⟩ :=
    joinChunks_ok (.ofCollider ix.grid slot collider) hleft.chunks
      (Span.nodup_ids h.grid) hleft.filled hleft.opened
  have htags : joined.tags = left.tags := by rw [hjoined.frame]
  have htagRefs : joined.tagRefList = left.tagRefList := by
    rw [hjoined.frame]
    rfl
  have htagSlots : joined.tagSlots = left.tagSlots := by
    funext tag
    rw [tagSlots, tagSlots, htags]
  have htagsLinked : Linked id joined.tagSlots (Function.update joined.tagRefList slot []) := by
    rw [htagRefs, htagSlots]
    exact hleft.tags
  have htagCount : ∀ tag ∈ collider.tags.toList, tag < joined.tags.size := by
    intro tag htag
    rw [htags, hleft.tagCount, h.tagCount]
    exact TagSet.lt_of_mem_toList htag
  obtain ⟨tagRefs, final, hjoinTags, hfinal⟩ :=
    joinTags_ok htagsLinked collider.tags.nodup_toList htagCount
  have hrejoined := rejoined_settle hs hleft hjoined hfinal
  refine ⟨final.settle slot collider chunkRefs tagRefs, ?_, hrejoined.consistent h hs hid hvalid,
    hrejoined.frame⟩
  unfold replaceCollider
  rw [get_bind, modify_bind]
  change (leaveChunks slot _ >>= _) (ix.openChunks _) = _
  rw [bind_of_ok hleaveChunks, bind_of_ok hleaveTags]
  change (List.mapM (joinChunk (.ofCollider ix.grid slot collider)) _ >>= _) left = _
  rw [bind_of_ok hjoinChunks, bind_of_ok hjoinTags]
  rfl

end EntityIndex
end SpriteField
