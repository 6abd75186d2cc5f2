import SpriteField.Proofs.EntityIndex.Calls

/-!
# The representation of the entities

What the tables hold in every state that calls can reach, told place by place.  In particular the
index passes its own check.  For this the entries of a table and the references to them are listed,
and the two lists are rearrangements of each other.
-/

namespace SpriteField

namespace Linked

variable {owner : α → Nat} {buckets : Nat → Array α} {refs : Nat → List BackRef}

def places (buckets : Nat → Array α) (keys : List Nat) : List BackRef :=
  keys.flatMap fun key => (List.range (buckets key).size).map (BackRef.mk key)

theorem mem_places {keys : List Nat} {ref : BackRef} :
    ref ∈ places buckets keys ↔
      ref.bucket ∈ keys ∧ ref.position < (buckets ref.bucket).size := by
  obtain ⟨bucket, position⟩ := ref
  simp only [places, List.mem_flatMap, List.mem_map, List.mem_range]
  constructor
  · rintro ⟨key, hkey, found, hlt, heq⟩
    cases heq
    exact ⟨hkey, hlt⟩
  · rintro ⟨hkey, hlt⟩
    exact ⟨bucket, hkey, position, hlt, rfl⟩

theorem length_places (keys : List Nat) :
    (places buckets keys).length = (keys.map fun key => (buckets key).size).sum := by
  simp [places, List.length_flatMap]

theorem nodup_places {keys : List Nat} (hkeys : keys.Nodup) : (places buckets keys).Nodup := by
  rw [places, List.nodup_flatMap]
  constructor
  · intro key _
    exact List.nodup_range.map fun _ _ heq => congrArg BackRef.position heq
  · refine hkeys.imp ?_
    intro key key' hne ref href href'
    simp only [List.mem_map] at href href'
    obtain ⟨_, -, rfl⟩ := href
    obtain ⟨_, -, heq⟩ := href'
    exact hne (congrArg BackRef.bucket heq).symm

theorem nodup_refs (h : Linked owner buckets refs) (count : Nat) :
    ((List.range count).flatMap refs).Nodup := by
  rw [List.nodup_flatMap]
  constructor
  · intro slot _
    exact (h.once slot).of_map
  · refine List.nodup_range.imp ?_
    intro slot slot' hne ref href href'
    obtain ⟨entry, hentry, howner⟩ := h.named href
    exact hne (howner.symm.trans (h.owner_eq href' hentry))

theorem sum_size_eq (h : Linked owner buckets refs) {keys : List Nat} (hkeys : keys.Nodup)
    (hall : ∀ key, 0 < (buckets key).size → key ∈ keys) {count : Nat}
    (hcount : ∀ slot ref, ref ∈ refs slot → slot < count) :
    (keys.map fun key => (buckets key).size).sum =
      ((List.range count).map fun slot => (refs slot).length).sum := by
  -- The places by bucket and the references by slot are the same, in another order.
  have hmem : ∀ ref, ref ∈ places buckets keys ↔ ref ∈ (List.range count).flatMap refs := by
    intro ref
    rw [mem_places, List.mem_flatMap]
    constructor
    · rintro ⟨-, hlt⟩
      have hlisted := h.listed (Array.getElem?_eq_getElem hlt)
      exact ⟨_, List.mem_range.mpr (hcount _ _ hlisted), hlisted⟩
    · rintro ⟨slot, -, href⟩
      have hlt := h.position_lt href
      exact ⟨hall _ (Nat.zero_lt_of_lt hlt), hlt⟩
  have hperm : (places buckets keys).Perm ((List.range count).flatMap refs) :=
    (List.perm_ext_iff_of_nodup (nodup_places hkeys) (h.nodup_refs count)).mpr hmem
  rw [← length_places, hperm.length_eq, List.length_flatMap]

theorem existsUnique_place {refs : Nat → Array BackRef}
    (h : Linked owner buckets fun slot => (refs slot).toList)
    {bucket position : Nat} {entry : α} (hentry : (buckets bucket)[position]? = some entry) :
    ∃! place : Nat × Nat, (refs place.1)[place.2]? = some ⟨bucket, position⟩ := by
  have hlisted : ⟨bucket, position⟩ ∈ refs (owner entry) :=
    Array.mem_toList_iff.mp (h.listed hentry)
  obtain ⟨i, hi⟩ := Array.mem_iff_getElem?.mp hlisted
  refine ⟨(owner entry, i), hi, ?_⟩
  rintro ⟨slot, j⟩ hj
  have hslot : owner entry = slot :=
    h.owner_eq (Array.mem_toList_iff.mpr (Array.mem_iff_getElem?.mpr ⟨j, hj⟩)) hentry
  subst hslot
  have hnodup : (refs (owner entry)).toList.Nodup := (h.once (owner entry)).of_map
  have hlt : i < (refs (owner entry)).toList.length := (Array.getElem?_eq_some_iff.mp hi).1
  have hsame : i = j := by
    apply (List.getElem?_inj hlt hnodup).mp
    rw [Array.getElem?_toList, Array.getElem?_toList, hi, hj]
  rw [hsame]

end Linked

namespace EntityIndex

theorem map_eq_map_range (xs : List α) (f : α → β) (g : Nat → β)
    (h : ∀ i x, xs[i]? = some x → f x = g i) : xs.map f = (List.range xs.length).map g := by
  apply List.ext_getElem?
  intro i
  rw [List.getElem?_map, List.getElem?_map]
  by_cases hi : i < xs.length
  · rw [List.getElem?_range hi, List.getElem?_eq_getElem hi]
    exact congrArg some (h i _ (List.getElem?_eq_getElem hi))
  · rw [List.getElem?_eq_none (by omega), List.getElem?_eq_none (by simp; omega)]
    rfl

theorem chunkEntryCount_eq (ix : EntityIndex) :
    ix.chunkEntryCount = (ix.chunks.keys.map fun chunk => (ix.chunkEntries chunk).size).sum := by
  rw [chunkEntryCount, ← List.sum_eq_foldl, ← Std.ExtTreeMap.map_fst_toList_eq_keys, List.map_map]
  congr 1
  apply List.map_congr_left
  rintro ⟨chunk, bucket⟩ hmem
  have hget := Std.ExtTreeMap.mem_toList_iff_getElem?_eq_some.mp hmem
  simp [chunkEntries_eq, hget, Bucket.size]

theorem tagEntryCount_eq (ix : EntityIndex) :
    ix.tagEntryCount = ((List.range ix.tags.size).map fun tag => (ix.tagSlots tag).size).sum := by
  rw [tagEntryCount, ← List.sum_eq_foldl,
    map_eq_map_range ix.tags.toList (·.size) fun tag => (ix.tagSlots tag).size]
  · rfl
  · intro tag bucket hbucket
    rw [Array.getElem?_toList] at hbucket
    rw [tagSlots_eq, hbucket]
    rfl

theorem chunkRefCount_eq (ix : EntityIndex) : ix.chunkRefCount =
    ((List.range ix.slots.size).map fun slot => (ix.chunkRefList slot).length).sum := by
  rw [chunkRefCount, ← List.sum_eq_foldl, map_eq_map_range ix.slots.toList (·.chunkRefs.size)
    fun slot => (ix.chunkRefList slot).length]
  · rfl
  · intro slot s hs
    rw [Array.getElem?_toList] at hs
    rw [chunkRefList_eq hs]
    rfl

theorem tagRefCount_eq (ix : EntityIndex) : ix.tagRefCount =
    ((List.range ix.slots.size).map fun slot => (ix.tagRefList slot).length).sum := by
  rw [tagRefCount, ← List.sum_eq_foldl, map_eq_map_range ix.slots.toList (·.tagRefs.size)
    fun slot => (ix.tagRefList slot).length]
  · rfl
  · intro slot s hs
    rw [Array.getElem?_toList] at hs
    rw [tagRefList_eq hs]
    rfl

theorem getElem?_chunkEntries {ix : EntityIndex} {chunk position : Nat} {entry : ChunkEntry}
    {bucket : Bucket ChunkEntry} (hbucket : ix.chunks[chunk]? = some bucket)
    (hentry : bucket.items[position]? = some entry) :
    (ix.chunkEntries chunk)[position]? = some entry := by
  rw [chunkEntries_eq, hbucket]
  exact hentry

theorem getElem?_tagSlots {ix : EntityIndex} {tag position slot : Nat} {bucket : Bucket Nat}
    (hbucket : ix.tags[tag]? = some bucket) (hslot : bucket.items[position]? = some slot) :
    (ix.tagSlots tag)[position]? = some slot := by
  rw [tagSlots_eq, hbucket]
  exact hslot

section Check

variable {ix : EntityIndex}

theorem mem_keys_of_entries {chunk : Nat} (hpos : 0 < (ix.chunkEntries chunk).size) :
    chunk ∈ ix.chunks.keys := by
  obtain ⟨bucket, hbucket, -⟩ := exists_chunk_of_getElem? (Array.getElem?_eq_getElem hpos)
  rw [Std.ExtTreeMap.mem_keys, Std.ExtTreeMap.mem_iff_isSome_getElem?, hbucket]
  rfl

theorem mem_range_of_entries {tag : Nat} (hpos : 0 < (ix.tagSlots tag).size) :
    tag ∈ List.range ix.tags.size := by
  obtain ⟨bucket, hbucket, -⟩ := exists_tag_of_getElem? (Array.getElem?_eq_getElem hpos)
  exact List.mem_range.mpr (Array.getElem?_eq_some_iff.mp hbucket).1

theorem lt_of_mem_chunkRefList {slot : Nat} {ref : BackRef} (href : ref ∈ ix.chunkRefList slot) :
    slot < ix.slots.size := by
  obtain ⟨s, hs⟩ := slots_of_mem_chunkRefList href
  exact lt_of_getElem?_eq_some hs

theorem lt_of_mem_tagRefList {slot : Nat} {ref : BackRef} (href : ref ∈ ix.tagRefList slot) :
    slot < ix.slots.size := by
  obtain ⟨s, hs⟩ := slots_of_mem_tagRefList href
  exact lt_of_getElem?_eq_some hs

theorem staleRef?_eq_none (h : ix.Consistent) {slot : Nat} {s : Slot}
    (hs : ix.slots[slot]? = some s) : ix.staleRef? s slot = none := by
  have hchunks : s.chunkRefs.toList.find? (!ix.namesChunkEntry slot ·) = none := by
    rw [List.find?_eq_none]
    intro ref href
    rw [← chunkRefList_eq hs] at href
    simp [namesChunkEntry_of_linked h.chunks href]
  have htags : s.tagRefs.toList.find? (!ix.namesTagEntry slot ·) = none := by
    rw [List.find?_eq_none]
    intro ref href
    rw [← tagRefList_eq hs] at href
    simp [namesTagEntry_of_linked h.tags href]
  simp [staleRef?, hchunks, htags]

theorem chunkEntryCount_eq_chunkRefCount (h : ix.Consistent) :
    ix.chunkEntryCount = ix.chunkRefCount := by
  rw [chunkEntryCount_eq, chunkRefCount_eq]
  exact h.chunks.sum_size_eq Std.ExtTreeMap.nodup_keys (fun _ => mem_keys_of_entries)
    fun _ _ => lt_of_mem_chunkRefList

theorem tagEntryCount_eq_tagRefCount (h : ix.Consistent) : ix.tagEntryCount = ix.tagRefCount := by
  rw [tagEntryCount_eq, tagRefCount_eq]
  exact h.tags.sum_size_eq List.nodup_range (fun _ => mem_range_of_entries)
    fun _ _ => lt_of_mem_tagRefList

theorem fault?_eq_none (h : ix.Consistent) : ix.fault? = none := by
  unfold fault?
  rw [Option.or_eq_none_iff, Option.or_eq_none_iff, Option.map_eq_none_iff,
    List.findSome?_eq_none_iff, List.find?_eq_none]
  refine ⟨?_, ?_, if_pos ⟨chunkEntryCount_eq_chunkRefCount h, tagEntryCount_eq_tagRefCount h⟩⟩
  · rintro ⟨s, slot⟩ hmem
    have hs := List.mem_zipIdx_iff_getElem?.mp hmem
    rw [Array.getElem?_toList] at hs
    exact staleRef?_eq_none h hs
  · rintro ⟨chunk, bucket⟩ hmem
    have hbucket := Std.ExtTreeMap.mem_toList_iff_getElem?_eq_some.mp hmem
    simp [h.filled hbucket]

theorem Consistent.check_eq_ok (h : ix.Consistent) : ix.check = .ok () := by
  rw [check, fault?_eq_none h]
  rfl

end Check

/-! ## Place by place -/

/-- The tables of an index stand for its slots, and for nothing else. -/
structure Represents (grid : Grid) (ix : EntityIndex) : Prop where
  distinct : (ix.entities.map (·.id)).Nodup
  inverse : ∀ id slot : Nat, ix.slotOf[id]? = some slot ↔
    (ix.entities.map (·.id))[slot]? = some id
  chunkRefs : ∀ (slot : Nat) (s : Slot), ix.slots[slot]? = some s →
    s.chunkRefs.toList.map (·.bucket) = (Span.ofRect grid s.entity.collider.bounds).ids
  tagRefs : ∀ (slot : Nat) (s : Slot), ix.slots[slot]? = some s →
    (s.tagRefs.toList.map (·.bucket)).Pairwise (· < ·) ∧
    ∀ tag, tag ∈ s.tagRefs.toList.map (·.bucket) ↔ s.entity.collider.tags.contains tag = true
  chunkEntries : ∀ (slot : Nat) (s : Slot), ix.slots[slot]? = some s → ∀ ref ∈ s.chunkRefs,
    ∃ bucket, ix.chunks[ref.bucket]? = some bucket ∧
      bucket.items[ref.position]? =
        some ⟨slot, s.entity.id, s.entity.collider.bounds, s.entity.collider.tags,
          1 < (Span.ofRect grid s.entity.collider.bounds).size⟩
  tagEntries : ∀ (slot : Nat) (s : Slot), ix.slots[slot]? = some s → ∀ ref ∈ s.tagRefs,
    ∃ bucket, ix.tags[ref.bucket]? = some bucket ∧ bucket.items[ref.position]? = some slot
  chunkNamed : ∀ (chunk position : Nat) (bucket : Bucket ChunkEntry),
    ix.chunks[chunk]? = some bucket → position < bucket.size →
      ∃! place : Nat × Nat, (ix.chunkRefs place.1)[place.2]? = some ⟨chunk, position⟩
  tagNamed : ∀ (tag position : Nat) (bucket : Bucket Nat),
    ix.tags[tag]? = some bucket → position < bucket.size →
      ∃! place : Nat × Nat, (ix.tagRefs place.1)[place.2]? = some ⟨tag, position⟩
  filled : ∀ (chunk : Nat) (bucket : Bucket ChunkEntry), ix.chunks[chunk]? = some bucket →
    bucket.items ≠ #[]
  checked : ix.check = .ok ()

theorem getElem?_entities_id (ix : EntityIndex) (slot : Nat) :
    (ix.entities.map (·.id))[slot]? = (ix.slots[slot]?).map (·.entity.id) := by
  simp [entities, Function.comp_def]

theorem Consistent.represents {ix : EntityIndex} (h : ix.Consistent) : Represents ix.grid ix := by
  have hinverse : ∀ id slot : Nat, ix.slotOf[id]? = some slot ↔
      (ix.entities.map (·.id))[slot]? = some id := by
    intro id slot
    rw [h.slotOf_iff, getElem?_entities_id, Option.map_eq_some_iff]
  constructor
  · rw [List.nodup_iff_getElem?_ne_getElem?]
    intro i j hij hj heq
    obtain ⟨id, hid⟩ : ∃ id, (ix.entities.map (·.id))[j]? = some id :=
      ⟨_, List.getElem?_eq_getElem hj⟩
    have hi := (hinverse id i).mpr (heq.trans hid)
    rw [(hinverse id j).mpr hid] at hi
    exact absurd (Option.some.inj hi) (by omega)
  · exact hinverse
  · intro slot s hs
    exact h.chunkRefs hs
  · intro slot s hs
    rw [h.tagRefs hs]
    exact ⟨s.entity.collider.tags.pairwise_toList, s.entity.collider.tags.mem_toList⟩
  · intro slot s hs ref href
    obtain ⟨entry, hentry, howner⟩ := h.chunks.named
      (show ref ∈ ix.chunkRefList slot by rw [chunkRefList_eq hs]; exact href.val)
    obtain ⟨bucket, hbucket, hget⟩ := exists_chunk_of_getElem? hentry
    obtain ⟨t, ht, heq⟩ := h.current ref.bucket entry (Array.mem_of_getElem? hentry)
    rw [howner, hs] at ht
    cases ht
    refine ⟨bucket, hbucket, ?_⟩
    rw [hget, heq, howner]
    rfl
  · intro slot s hs ref href
    obtain ⟨entry, hentry, howner⟩ := h.tags.named
      (show ref ∈ ix.tagRefList slot by rw [tagRefList_eq hs]; exact href.val)
    rw [id_eq] at howner
    rw [howner] at hentry
    exact exists_tag_of_getElem? hentry
  · intro chunk position bucket hbucket hlt
    exact Linked.existsUnique_place h.chunks
      (getElem?_chunkEntries hbucket (Array.getElem?_eq_getElem hlt))
  · intro tag position bucket hbucket hlt
    exact Linked.existsUnique_place h.tags
      (getElem?_tagSlots hbucket (Array.getElem?_eq_getElem hlt))
  · intro chunk bucket hbucket hempty
    have hfilled := h.filled hbucket
    rw [Bucket.isEmpty, hempty] at hfilled
    cases hfilled
  · exact h.check_eq_ok

/-- In every state that calls reach from an empty index, the tables stand for the slots. -/
theorem run_represents {grid : Grid} {start : EntityIndex} (hnew : new grid = .ok start)
    (calls : List Call) : Represents grid (start.run calls) := by
  obtain ⟨hconsistent, hgrid⟩ := consistent_run hnew calls
  rw [← hgrid]
  exact hconsistent.represents

/-- Two entities in one chunk, of which the first moves to another. -/
theorem represents_after_move :
    new .standard = .ok (onGrid .standard) ∧
      Represents .standard ((onGrid .standard).run
        [.setCollider ⟨7, .ofSize .zero .zero .one .one, .ofList [3]⟩,
          .setCollider ⟨9, .ofSize .zero .zero .one .one, .ofList [3, 200]⟩,
          .setBounds 7 (.ofSize (.ofNat 64) .zero (.ofNat 64) .one)]) :=
  ⟨rfl, run_represents rfl _⟩

end EntityIndex
end SpriteField
