import SpriteField.Proofs.EntityIndex.Representation

/-!
# What the consistency check detects

The check follows every reference, but it only counts the entries.  An index that passes it can hold
an entry that no reference names, if in turn another entry is named twice by its slot.  This is the
only way: an index that passes lists all entries of a table just if no slot has one reference twice.
-/

namespace SpriteField

namespace Linked

variable {owner : α → Nat} {buckets : Nat → Array α} {refs : Nat → List BackRef}

/-- Every reference of a slot names an entry of this slot. -/
def Named (owner : α → Nat) (buckets : Nat → Array α) (refs : Nat → List BackRef) : Prop :=
  ∀ slot, ∀ ref ∈ refs slot,
    ∃ entry, (buckets ref.bucket)[ref.position]? = some entry ∧ owner entry = slot

/-- Every entry is named by a reference of the slot that it belongs to. -/
def Listed (owner : α → Nat) (buckets : Nat → Array α) (refs : Nat → List BackRef) : Prop :=
  ∀ bucket position entry, (buckets bucket)[position]? = some entry →
    ⟨bucket, position⟩ ∈ refs (owner entry)

theorem Named.slot_eq (h : Named owner buckets refs) {ref : BackRef} {slot slot' : Nat}
    (href : ref ∈ refs slot) (href' : ref ∈ refs slot') : slot = slot' := by
  obtain ⟨entry, hentry, howner⟩ := h slot ref href
  obtain ⟨entry', hentry', howner'⟩ := h slot' ref href'
  rw [hentry] at hentry'
  rw [← howner, ← howner', Option.some.inj hentry']

/-- Two slots never name the same entry. -/
theorem Named.nodup_flatMap_iff (h : Named owner buckets refs) {count : Nat}
    (hcount : ∀ slot ref, ref ∈ refs slot → slot < count) :
    ((List.range count).flatMap refs).Nodup ↔ ∀ slot, (refs slot).Nodup := by
  rw [List.nodup_flatMap]
  constructor
  · rintro ⟨hnodup, -⟩ slot
    by_cases hslot : slot < count
    · exact hnodup slot (List.mem_range.mpr hslot)
    · rw [List.eq_nil_iff_forall_not_mem.mpr fun ref href => hslot (hcount slot ref href)]
      exact List.nodup_nil
  · intro hnodup
    refine ⟨fun slot _ => hnodup slot, List.nodup_range.imp ?_⟩
    intro slot slot' hne ref href href'
    exact hne (h.slot_eq href href')

theorem Named.listed_iff_nodup (h : Named owner buckets refs) {keys : List Nat}
    (hkeys : keys.Nodup) (hall : ∀ key, 0 < (buckets key).size → key ∈ keys) {count : Nat}
    (hcount : ∀ slot ref, ref ∈ refs slot → slot < count)
    (hsum : (keys.map fun key => (buckets key).size).sum =
      ((List.range count).map fun slot => (refs slot).length).sum) :
    Listed owner buckets refs ↔ ∀ slot, (refs slot).Nodup := by
  -- As many references as places: either none is missed, or another one is met again.
  rw [← h.nodup_flatMap_iff hcount]
  have hlength : (places buckets keys).length = ((List.range count).flatMap refs).length := by
    rw [length_places, hsum, List.length_flatMap]
  constructor
  · intro hlisted
    have hsubset : places buckets keys ⊆ (List.range count).flatMap refs := by
      intro ref href
      obtain ⟨-, hlt⟩ := mem_places.mp href
      have hmem := hlisted ref.bucket ref.position _ (Array.getElem?_eq_getElem hlt)
      exact List.mem_flatMap.mpr ⟨_, List.mem_range.mpr (hcount _ _ hmem), hmem⟩
    have hperm := ((nodup_places hkeys).subperm hsubset).perm_of_length_le hlength.ge
    exact hperm.nodup_iff.mp (nodup_places hkeys)
  · intro hnodup bucket position entry hentry
    have hsubset : (List.range count).flatMap refs ⊆ places buckets keys := by
      intro ref href
      obtain ⟨slot, -, href⟩ := List.mem_flatMap.mp href
      obtain ⟨entry, hentry, -⟩ := h slot ref href
      have hlt := (Array.getElem?_eq_some_iff.mp hentry).1
      exact mem_places.mpr ⟨hall _ (Nat.zero_lt_of_lt hlt), hlt⟩
    have hperm := (hnodup.subperm hsubset).perm_of_length_le hlength.le
    have hlt := (Array.getElem?_eq_some_iff.mp hentry).1
    have hplace : ⟨bucket, position⟩ ∈ places buckets keys :=
      mem_places.mpr ⟨hall bucket (Nat.zero_lt_of_lt hlt), hlt⟩
    obtain ⟨slot, -, href⟩ := List.mem_flatMap.mp (hperm.mem_iff.mpr hplace)
    obtain ⟨entry', hentry', howner⟩ := h slot _ href
    rw [hentry] at hentry'
    rwa [Option.some.inj hentry', howner]

end Linked

namespace EntityIndex

variable {ix : EntityIndex} {slot : Nat} {s : Slot} {ref : BackRef}

/-! ## The parts of the check -/

theorem namesChunkEntry_iff : ix.namesChunkEntry slot ref = true ↔
    ∃ entry, (ix.chunkEntries ref.bucket)[ref.position]? = some entry ∧ entry.slot = slot := by
  rw [namesChunkEntry, chunkEntries_eq]
  cases ix.chunks[ref.bucket]? with
  | none => simp
  | some bucket => cases hentry : bucket.items[ref.position]? <;> simp [hentry]

theorem namesTagEntry_iff : ix.namesTagEntry slot ref = true ↔
    ∃ entry, (ix.tagSlots ref.bucket)[ref.position]? = some entry ∧ id entry = slot := by
  rw [namesTagEntry, tagSlots_eq]
  cases ix.tags[ref.bucket]? with
  | none => simp
  | some bucket => cases hentry : bucket.items[ref.position]? <;> simp [hentry]

theorem staleRef?_eq_none_iff : ix.staleRef? s slot = none ↔
    (∀ ref ∈ s.chunkRefs.toList, ix.namesChunkEntry slot ref = true) ∧
      ∀ ref ∈ s.tagRefs.toList, ix.namesTagEntry slot ref = true := by
  simp [staleRef?, Option.or_eq_none_iff]

theorem check_eq_ok_iff : ix.check = .ok () ↔ ix.fault? = none := by
  rw [check]
  cases ix.fault? with
  | none => exact iff_of_true rfl rfl
  | some fault => exact iff_of_false (by rintro ⟨⟩) (by rintro ⟨⟩)

theorem named_chunks_iff : Linked.Named (·.slot) ix.chunkEntries ix.chunkRefList ↔
    ∀ slot s, ix.slots[slot]? = some s →
      ∀ ref ∈ s.chunkRefs.toList, ix.namesChunkEntry slot ref = true := by
  constructor
  · intro hnamed slot s hs ref href
    rw [← chunkRefList_eq hs] at href
    exact namesChunkEntry_iff.mpr (hnamed slot ref href)
  · intro hnamed slot ref href
    obtain ⟨s, hs⟩ := slots_of_mem_chunkRefList href
    rw [chunkRefList_eq hs] at href
    exact namesChunkEntry_iff.mp (hnamed slot s hs ref href)

theorem named_tags_iff : Linked.Named id ix.tagSlots ix.tagRefList ↔
    ∀ slot s, ix.slots[slot]? = some s →
      ∀ ref ∈ s.tagRefs.toList, ix.namesTagEntry slot ref = true := by
  constructor
  · intro hnamed slot s hs ref href
    rw [← tagRefList_eq hs] at href
    exact namesTagEntry_iff.mpr (hnamed slot ref href)
  · intro hnamed slot ref href
    obtain ⟨s, hs⟩ := slots_of_mem_tagRefList href
    rw [tagRefList_eq hs] at href
    exact namesTagEntry_iff.mp (hnamed slot s hs ref href)

/-- What an index has to satisfy to pass its check. -/
structure Passes (ix : EntityIndex) : Prop where
  chunks : Linked.Named (·.slot) ix.chunkEntries ix.chunkRefList
  tags : Linked.Named id ix.tagSlots ix.tagRefList
  filled : ∀ (chunk : Nat) (bucket : Bucket ChunkEntry), ix.chunks[chunk]? = some bucket →
    bucket.isEmpty = false
  chunkCount : ix.chunkEntryCount = ix.chunkRefCount
  tagCount : ix.tagEntryCount = ix.tagRefCount

theorem passes_of_check (h : ix.check = .ok ()) : Passes ix := by
  rw [check_eq_ok_iff, fault?, Option.or_eq_none_iff, Option.or_eq_none_iff,
    Option.map_eq_none_iff, List.findSome?_eq_none_iff, List.find?_eq_none] at h
  obtain ⟨hslots, hfilled, hcounts⟩ := h
  have hnamed : ∀ slot s, ix.slots[slot]? = some s →
      (∀ ref ∈ s.chunkRefs.toList, ix.namesChunkEntry slot ref = true) ∧
        ∀ ref ∈ s.tagRefs.toList, ix.namesTagEntry slot ref = true := by
    intro slot s hs
    rw [← Array.getElem?_toList] at hs
    exact staleRef?_eq_none_iff.mp (hslots (s, slot) (List.mem_zipIdx_iff_getElem?.mpr hs))
  constructor
  · exact named_chunks_iff.mpr fun slot s hs => (hnamed slot s hs).1
  · exact named_tags_iff.mpr fun slot s hs => (hnamed slot s hs).2
  · intro chunk bucket hbucket
    simpa using hfilled (chunk, bucket)
      (Std.ExtTreeMap.mem_toList_iff_getElem?_eq_some.mpr hbucket)
  · by_contra hne
    rw [if_neg fun hcounts => hne hcounts.1] at hcounts
    cases hcounts
  · by_contra hne
    rw [if_neg fun hcounts => hne hcounts.2] at hcounts
    cases hcounts

/-! ## Entries that no reference names -/

theorem Passes.listed_chunks_iff (h : Passes ix) :
    Linked.Listed (·.slot) ix.chunkEntries ix.chunkRefList ↔
      ∀ slot, (ix.chunkRefList slot).Nodup := by
  apply h.chunks.listed_iff_nodup Std.ExtTreeMap.nodup_keys (fun _ => mem_keys_of_entries)
    fun _ _ => lt_of_mem_chunkRefList
  rw [← chunkEntryCount_eq, h.chunkCount, chunkRefCount_eq]

theorem Passes.listed_tags_iff (h : Passes ix) :
    Linked.Listed id ix.tagSlots ix.tagRefList ↔ ∀ slot, (ix.tagRefList slot).Nodup := by
  apply h.tags.listed_iff_nodup List.nodup_range (fun _ => mem_range_of_entries)
    fun _ _ => lt_of_mem_tagRefList
  rw [← tagEntryCount_eq, h.tagCount, tagRefCount_eq]

/-- What is known of an index that has passed its check. -/
structure Detected (ix : EntityIndex) : Prop where
  chunkRefs : ∀ (slot : Nat) (s : Slot), ix.slots[slot]? = some s → ∀ ref ∈ s.chunkRefs,
    ∃ bucket entry, ix.chunks[ref.bucket]? = some bucket ∧
      bucket.items[ref.position]? = some entry ∧ entry.slot = slot
  tagRefs : ∀ (slot : Nat) (s : Slot), ix.slots[slot]? = some s → ∀ ref ∈ s.tagRefs,
    ∃ bucket, ix.tags[ref.bucket]? = some bucket ∧ bucket.items[ref.position]? = some slot
  filled : ∀ (chunk : Nat) (bucket : Bucket ChunkEntry), ix.chunks[chunk]? = some bucket →
    bucket.items ≠ #[]
  /-- All chunk entries are named just if no slot has one chunk reference twice. -/
  chunkEntries : (∀ (chunk position : Nat) (bucket : Bucket ChunkEntry) (entry : ChunkEntry),
      ix.chunks[chunk]? = some bucket → bucket.items[position]? = some entry →
        ⟨chunk, position⟩ ∈ ix.chunkRefs entry.slot) ↔
    ∀ slot, (ix.chunkRefs slot).toList.Nodup
  /-- All tag entries are named just if no slot has one tag reference twice. -/
  tagEntries : (∀ (tag position slot : Nat) (bucket : Bucket Nat),
      ix.tags[tag]? = some bucket → bucket.items[position]? = some slot →
        ⟨tag, position⟩ ∈ ix.tagRefs slot) ↔
    ∀ slot, (ix.tagRefs slot).toList.Nodup

theorem detected_of_check (h : ix.check = .ok ()) : Detected ix := by
  have hpasses := passes_of_check h
  constructor
  · intro slot s hs ref href
    rw [← Array.mem_toList_iff, ← chunkRefList_eq hs] at href
    obtain ⟨entry, hentry, howner⟩ := hpasses.chunks slot ref href
    obtain ⟨bucket, hbucket, hget⟩ := exists_chunk_of_getElem? hentry
    exact ⟨bucket, entry, hbucket, hget, howner⟩
  · intro slot s hs ref href
    rw [← Array.mem_toList_iff, ← tagRefList_eq hs] at href
    obtain ⟨entry, hentry, rfl⟩ := hpasses.tags slot ref href
    exact exists_tag_of_getElem? hentry
  · intro chunk bucket hbucket hempty
    have hfilled := hpasses.filled chunk bucket hbucket
    rw [Bucket.isEmpty, hempty] at hfilled
    cases hfilled
  · refine Iff.trans ?_ hpasses.listed_chunks_iff
    constructor
    · intro hlisted chunk position entry hentry
      obtain ⟨bucket, hbucket, hget⟩ := exists_chunk_of_getElem? hentry
      exact Array.mem_toList_iff.mpr (hlisted chunk position bucket entry hbucket hget)
    · intro hlisted chunk position bucket entry hbucket hget
      exact Array.mem_toList_iff.mp
        (hlisted chunk position entry (getElem?_chunkEntries hbucket hget))
  · refine Iff.trans ?_ hpasses.listed_tags_iff
    constructor
    · intro hlisted tag position slot hslot
      obtain ⟨bucket, hbucket, hget⟩ := exists_tag_of_getElem? hslot
      exact Array.mem_toList_iff.mpr (hlisted tag position slot bucket hbucket hget)
    · intro hlisted tag position slot bucket hbucket hget
      exact Array.mem_toList_iff.mp
        (hlisted tag position slot (getElem?_tagSlots hbucket hget))

/-- Tag 5 has an entry for each of two slots.  Slot 0 has the reference to its own twice, and slot 1
has none. -/
def doublyNamed : EntityIndex :=
  { onGrid .standard with
    slots := #[{ Slot.blank 7 with tagRefs := #[⟨5, 0⟩, ⟨5, 0⟩] }, Slot.blank 8]
    slotOf := Std.ExtTreeMap.ofList [(7, 0), (8, 1)]
    tags := (Array.replicate tagCount Bucket.empty).setIfInBounds 5 ⟨#[0, 1]⟩ }

theorem detected_doublyNamed : doublyNamed.check = .ok () ∧ Detected doublyNamed :=
  have hcheck : doublyNamed.check = .ok () := by decide +kernel
  ⟨hcheck, detected_of_check hcheck⟩

/-- The check passes an index with an entry that no reference names. -/
theorem check_doublyNamed : doublyNamed.check = .ok () ∧ doublyNamed.tags.size = 256 ∧
    (∀ slot < doublyNamed.size, ∀ ref ∈ (doublyNamed.tagRefs slot).toList, ref.bucket < 256) ∧
    (doublyNamed.tags[5]?.bind fun bucket => bucket.items[1]?) = some 1 ∧
    ⟨5, 1⟩ ∉ (doublyNamed.tagRefs 1).toList := by
  decide +kernel

end EntityIndex
end SpriteField
