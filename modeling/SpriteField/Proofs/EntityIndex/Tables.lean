import SpriteField.EntityIndex.Consistency
import SpriteField.EntityIndex.Search
import SpriteField.Proofs.EntityIndex.Linked

/-!
# The two tables of the entity index

Chunks and tags are read as functions from a bucket number to its entries, and references as
functions from a slot to its list.  An update of the memberships in one table is framed by the index
without that table: whatever is left when the table is erased has not changed.
-/

namespace SpriteField

section Keys

variable {β : Type} (table : Std.ExtTreeMap Nat β) (key key' : Nat)

theorem getElem?_alter_key (change : Option β → Option β) :
    (table.alter key change)[key']? = if key' = key then change table[key']? else table[key']? := by
  simp only [Std.ExtTreeMap.getElem?_alter, compare_eq_iff_eq]
  by_cases h : key' = key
  · simp [h]
  · simp [h, Ne.symm h]

theorem getElem?_modify_key (change : β → β) :
    (table.modify key change)[key']? =
      if key' = key then (table[key']?).map change else table[key']? := by
  simp only [Std.ExtTreeMap.getElem?_modify, compare_eq_iff_eq]
  by_cases h : key' = key
  · simp [h]
  · simp [h, Ne.symm h]

theorem getElem?_insertIfNew_key (value : β) :
    (table.insertIfNew key value)[key']? =
      if key' = key then some (table[key']?.getD value) else table[key']? := by
  simp only [Std.ExtTreeMap.getElem?_insertIfNew, compare_eq_iff_eq,
    Std.ExtTreeMap.mem_iff_isSome_getElem?]
  by_cases h : key' = key
  · subst h
    cases table[key']? <;> simp
  · simp [h, Ne.symm h]

end Keys

def Slot.withoutChunkRefs (s : Slot) : Slot :=
  { s with chunkRefs := #[] }

def Slot.withoutTagRefs (s : Slot) : Slot :=
  { s with tagRefs := #[] }

namespace EntityIndex

/-- The entries of a chunk; a chunk without a bucket has none. -/
def chunkEntries (ix : EntityIndex) (chunk : Nat) : Array ChunkEntry :=
  (ix.chunks.getD chunk .empty).items

def tagSlots (ix : EntityIndex) (tag : Nat) : Array Nat :=
  (ix.tags.getD tag .empty).items

def chunkRefList (ix : EntityIndex) (slot : Nat) : List BackRef :=
  (ix.chunkRefs slot).toList

def tagRefList (ix : EntityIndex) (slot : Nat) : List BackRef :=
  (ix.tagRefs slot).toList

theorem chunkEntries_eq (ix : EntityIndex) (chunk : Nat) :
    ix.chunkEntries chunk = ((ix.chunks[chunk]?).map (·.items)).getD #[] := by
  rw [chunkEntries, Std.ExtTreeMap.getD_eq_getD_getElem?]
  cases ix.chunks[chunk]? <;> rfl

theorem tagSlots_eq (ix : EntityIndex) (tag : Nat) :
    ix.tagSlots tag = ((ix.tags[tag]?).map (·.items)).getD #[] := by
  rw [tagSlots, Array.getD_eq_getD_getElem?]
  cases ix.tags[tag]? <;> rfl

theorem chunkRefList_eq {ix : EntityIndex} {slot : Nat} {s : Slot}
    (h : ix.slots[slot]? = some s) : ix.chunkRefList slot = s.chunkRefs.toList := by
  rw [chunkRefList, chunkRefs, h]
  rfl

theorem tagRefList_eq {ix : EntityIndex} {slot : Nat} {s : Slot}
    (h : ix.slots[slot]? = some s) : ix.tagRefList slot = s.tagRefs.toList := by
  rw [tagRefList, tagRefs, h]
  rfl

theorem chunkRefList_of_none {ix : EntityIndex} {slot : Nat} (h : ix.slots[slot]? = none) :
    ix.chunkRefList slot = [] := by
  rw [chunkRefList, chunkRefs, h]
  rfl

theorem tagRefList_of_none {ix : EntityIndex} {slot : Nat} (h : ix.slots[slot]? = none) :
    ix.tagRefList slot = [] := by
  rw [tagRefList, tagRefs, h]
  rfl

theorem slots_of_mem_chunkRefList {ix : EntityIndex} {slot : Nat} {ref : BackRef}
    (h : ref ∈ ix.chunkRefList slot) : ∃ s, ix.slots[slot]? = some s := by
  cases hs : ix.slots[slot]? with
  | none => simp [chunkRefList_of_none hs] at h
  | some s => exact ⟨s, rfl⟩

theorem slots_of_mem_tagRefList {ix : EntityIndex} {slot : Nat} {ref : BackRef}
    (h : ref ∈ ix.tagRefList slot) : ∃ s, ix.slots[slot]? = some s := by
  cases hs : ix.slots[slot]? with
  | none => simp [tagRefList_of_none hs] at h
  | some s => exact ⟨s, rfl⟩

theorem exists_chunk_of_getElem? {ix : EntityIndex} {chunk position : Nat} {entry : ChunkEntry}
    (h : (ix.chunkEntries chunk)[position]? = some entry) :
    ∃ bucket, ix.chunks[chunk]? = some bucket ∧ bucket.items[position]? = some entry := by
  rw [chunkEntries_eq] at h
  cases hbucket : ix.chunks[chunk]? with
  | none => simp [hbucket] at h
  | some bucket =>
    rw [hbucket] at h
    exact ⟨bucket, rfl, h⟩

theorem exists_tag_of_getElem? {ix : EntityIndex} {tag position slot : Nat}
    (h : (ix.tagSlots tag)[position]? = some slot) :
    ∃ bucket, ix.tags[tag]? = some bucket ∧ bucket.items[position]? = some slot := by
  rw [tagSlots_eq] at h
  cases hbucket : ix.tags[tag]? with
  | none => simp [hbucket] at h
  | some bucket =>
    rw [hbucket] at h
    exact ⟨bucket, rfl, h⟩

theorem namesChunkEntry_of_linked {ix : EntityIndex} {refs : Nat → List BackRef}
    (h : Linked (·.slot) ix.chunkEntries refs) {slot : Nat} {ref : BackRef}
    (href : ref ∈ refs slot) : ix.namesChunkEntry slot ref = true := by
  obtain ⟨entry, hentry, howner⟩ := h.named href
  obtain ⟨bucket, hbucket, hget⟩ := exists_chunk_of_getElem? hentry
  simp [namesChunkEntry, hbucket, hget, howner]

theorem namesTagEntry_of_linked {ix : EntityIndex} {refs : Nat → List BackRef}
    (h : Linked id ix.tagSlots refs) {slot : Nat} {ref : BackRef}
    (href : ref ∈ refs slot) : ix.namesTagEntry slot ref = true := by
  obtain ⟨entry, hentry, howner⟩ := h.named href
  obtain ⟨bucket, hbucket, hget⟩ := exists_tag_of_getElem? hentry
  rw [id_eq] at howner
  simp [namesTagEntry, hbucket, hget, howner]

/-! ## Changes of one slot -/

theorem getElem?_modifySlot (ix : EntityIndex) (slot i : Nat) (change : Slot → Slot) :
    (ix.modifySlot slot change).slots[i]? =
      if slot = i then (ix.slots[i]?).map change else ix.slots[i]? := by
  rw [modifySlot, Array.getElem?_modify]

theorem chunkRefList_modifySlot_of_ne (ix : EntityIndex) {slot other : Nat} (h : other ≠ slot)
    (change : Slot → Slot) :
    (ix.modifySlot slot change).chunkRefList other = ix.chunkRefList other := by
  rw [chunkRefList, chunkRefs, getElem?_modifySlot, if_neg (Ne.symm h)]
  rfl

theorem tagRefList_modifySlot_of_ne (ix : EntityIndex) {slot other : Nat} (h : other ≠ slot)
    (change : Slot → Slot) :
    (ix.modifySlot slot change).tagRefList other = ix.tagRefList other := by
  rw [tagRefList, tagRefs, getElem?_modifySlot, if_neg (Ne.symm h)]
  rfl

/-! ## Frames -/

/-- All of the index but the chunks and the counters. -/
def withoutChunks (ix : EntityIndex) : EntityIndex :=
  { ix with slots := ix.slots.map Slot.withoutChunkRefs, chunks := ∅, counters := default }

def withoutTags (ix : EntityIndex) : EntityIndex :=
  { ix with slots := ix.slots.map Slot.withoutTagRefs, tags := #[], counters := default }

@[simp] theorem withoutChunks_countFixup (ix : EntityIndex) :
    (countFixup ix).withoutChunks = ix.withoutChunks := rfl

@[simp] theorem withoutTags_countFixup (ix : EntityIndex) :
    (countFixup ix).withoutTags = ix.withoutTags := rfl

theorem withoutChunks_modifySlot (ix : EntityIndex) (slot : Nat) (change : Slot → Slot)
    (hchange : ∀ s, Slot.withoutChunkRefs (change s) = Slot.withoutChunkRefs s) :
    (ix.modifySlot slot change).withoutChunks = ix.withoutChunks := by
  have hslots : (ix.slots.modify slot change).map Slot.withoutChunkRefs =
      ix.slots.map Slot.withoutChunkRefs := by
    apply Array.ext_getElem?
    intro i
    rw [Array.getElem?_map, Array.getElem?_map, Array.getElem?_modify]
    cases ix.slots[i]? <;> split <;> simp [hchange]
  rw [withoutChunks, withoutChunks, modifySlot, hslots]

theorem withoutTags_modifySlot (ix : EntityIndex) (slot : Nat) (change : Slot → Slot)
    (hchange : ∀ s, Slot.withoutTagRefs (change s) = Slot.withoutTagRefs s) :
    (ix.modifySlot slot change).withoutTags = ix.withoutTags := by
  have hslots : (ix.slots.modify slot change).map Slot.withoutTagRefs =
      ix.slots.map Slot.withoutTagRefs := by
    apply Array.ext_getElem?
    intro i
    rw [Array.getElem?_map, Array.getElem?_map, Array.getElem?_modify]
    cases ix.slots[i]? <;> split <;> simp [hchange]
  rw [withoutTags, withoutTags, modifySlot, hslots]

section Frames

variable {ix ix' : EntityIndex}

theorem tagRefList_of_withoutChunks (h : ix'.withoutChunks = ix.withoutChunks) :
    ix'.tagRefList = ix.tagRefList := by
  funext slot
  have hslot := congrArg (fun ix => ix.tagRefList slot) h
  simpa [withoutChunks, tagRefList, tagRefs, Function.comp_def, Slot.withoutChunkRefs] using hslot

theorem tagSlots_of_withoutChunks (h : ix'.withoutChunks = ix.withoutChunks) :
    ix'.tagSlots = ix.tagSlots := by
  have hslots := congrArg tagSlots h
  exact hslots

theorem chunkRefList_of_withoutTags (h : ix'.withoutTags = ix.withoutTags) :
    ix'.chunkRefList = ix.chunkRefList := by
  funext slot
  have hslot := congrArg (fun ix => ix.chunkRefList slot) h
  simpa [withoutTags, chunkRefList, chunkRefs, Function.comp_def, Slot.withoutTagRefs] using hslot

theorem chunkEntries_of_withoutTags (h : ix'.withoutTags = ix.withoutTags) :
    ix'.chunkEntries = ix.chunkEntries := by
  have hentries := congrArg chunkEntries h
  exact hentries

theorem chunks_of_withoutTags (h : ix'.withoutTags = ix.withoutTags) : ix'.chunks = ix.chunks := by
  have hchunks := congrArg EntityIndex.chunks h
  exact hchunks

end Frames

end EntityIndex
end SpriteField
