import SpriteField.Proofs.EntityIndex.Edit

/-!
# The order within the buckets

Leaving a bucket and joining one are read as functions of all buckets, so that what an update does
to them is an equation.  What has joined last stands last in each of its buckets, and so leaving
again moves nothing.
-/

namespace SpriteField

namespace Linked

variable {owner : α → Nat} {buckets : Nat → Array α} {refs : Nat → List BackRef} {slot : Nat}

/-- The buckets after a slot with these references has left them. -/
def vacate (buckets : Nat → Array α) (refs : List BackRef) (key : Nat) : Array α :=
  match refs.find? (·.bucket == key) with
  | some ref => swapPop (buckets key) ref.position
  | none => buckets key

/-- The buckets after an entry has joined those of `ids`. -/
def occupy (buckets : Nat → Array α) (ids : List Nat) (entry : α) (key : Nat) : Array α :=
  if key ∈ ids then (buckets key).push entry else buckets key

theorem find?_bucket_eq_none {refs : List BackRef} {key : Nat}
    (h : key ∉ refs.map (·.bucket)) : refs.find? (·.bucket == key) = none := by
  rw [List.find?_eq_none]
  intro ref href hbucket
  exact h (List.mem_map.mpr ⟨ref, href, beq_iff_eq.mp hbucket⟩)

theorem vacate_of_not_mem {refs : List BackRef} {key : Nat}
    (h : key ∉ refs.map (·.bucket)) : vacate buckets refs key = buckets key := by
  rw [vacate, find?_bucket_eq_none h]

theorem occupy_nil (buckets : Nat → Array α) (entry : α) :
    occupy buckets [] entry = buckets := by
  funext key
  exact if_neg List.not_mem_nil

/-- Leaving the bucket of the first reference, and then the others. -/
theorem vacate_cons {buckets' : Nat → Array α} {ref : BackRef} {rest : List BackRef}
    (hnodup : ((ref :: rest).map (·.bucket)).Nodup)
    (h : ∀ key, buckets' key =
      if key = ref.bucket then swapPop (buckets key) ref.position else buckets key) :
    vacate buckets' rest = vacate buckets (ref :: rest) := by
  rw [List.map_cons, List.nodup_cons] at hnodup
  funext key
  by_cases heq : key = ref.bucket
  · rw [vacate_of_not_mem (heq ▸ hnodup.1), h, if_pos heq, vacate,
      List.find?_cons_of_pos (by rw [heq, beq_self_eq_true])]
  · rw [vacate, vacate, List.find?_cons_of_neg (by simpa using Ne.symm heq), h, if_neg heq]

theorem occupy_cons {buckets' : Nat → Array α} {id : Nat} {ids : List Nat} {entry : α}
    (hnodup : (id :: ids).Nodup)
    (h : ∀ key, buckets' key =
      if key = id then (buckets key).push entry else buckets key) :
    occupy buckets' ids entry = occupy buckets (id :: ids) entry := by
  rw [List.nodup_cons] at hnodup
  funext key
  by_cases heq : key = id
  · subst heq
    rw [occupy, occupy, h, if_pos rfl, if_pos List.mem_cons_self, if_neg hnodup.1]
  · rw [occupy, occupy, h, if_neg heq]
    simp only [List.mem_cons, heq, false_or]

/-- What joined last is last in each of its buckets, so when it leaves nothing moves. -/
theorem vacate_occupy {ids : List Nat} {entry : α}
    (h : Linked owner (occupy buckets ids entry) refs)
    (hbuckets : (refs (owner entry)).map (·.bucket) = ids) :
    vacate (occupy buckets ids entry) (refs (owner entry)) = buckets := by
  funext key
  by_cases hkey : key ∈ ids
  · have hoccupied : occupy buckets ids entry key = (buckets key).push entry := if_pos hkey
    have hlast : ⟨key, (buckets key).size⟩ ∈ refs (owner entry) :=
      h.listed (by rw [hoccupied, Array.getElem?_push_size])
    cases hfind : (refs (owner entry)).find? (·.bucket == key) with
    | none =>
      have hnone := List.find?_eq_none.mp hfind _ hlast
      simp at hnone
    | some ref =>
      have href := List.mem_of_find?_eq_some hfind
      have hbucket : ref.bucket = key := by simpa using List.find?_some hfind
      rw [vacate, hfind, h.eq_of_bucket_eq href hlast hbucket, hoccupied]
      exact swapPop_push (buckets key) entry
  · rw [vacate_of_not_mem (hbuckets ▸ hkey)]
    exact if_neg hkey

/-- The buckets of a slot and what they hold determine its references. -/
theorem refs_unique {refs' : Nat → List BackRef} (h : Linked owner buckets refs)
    (h' : Linked owner buckets refs')
    (hbuckets : (refs slot).map (·.bucket) = (refs' slot).map (·.bucket)) :
    refs slot = refs' slot := by
  have hlength : (refs slot).length = (refs' slot).length := by
    simpa using congrArg List.length hbuckets
  apply List.ext_getElem hlength
  intro i hi hi'
  have hmem := List.getElem_mem hi
  obtain ⟨entry, hentry, howner⟩ := h.named hmem
  have hlisted := h'.listed hentry
  rw [howner] at hlisted
  have hbucket : (refs slot)[i].bucket = (refs' slot)[i].bucket := by
    simpa [hi, hi'] using congrArg (·[i]?) hbuckets
  exact h'.eq_of_bucket_eq hlisted (List.getElem_mem hi') hbucket

end Linked

namespace EntityIndex

variable {ix ix' : EntityIndex} {slot : Nat} {ref : BackRef}

/-! ## Chunks -/

theorem repointChunk_done {chunk : Nat} {move : Relocation}
    (h : repointChunk slot chunk move ix = .ok ⟨⟩ ix') : ∃ i, ix' = countFixup
      (ix.modifySlot slot fun s =>
        { s with chunkRefs := s.chunkRefs.modify i (withPosition move.target) }) := by
  unfold repointChunk at h
  rw [get_bind] at h
  cases hfound : refTo? (ix.chunkRefs slot) chunk move.source with
  | none =>
    rw [hfound] at h
    cases h
  | some i =>
    rw [hfound] at h
    cases h
    exact ⟨i, rfl⟩

/-- The entry is taken out, then what has moved is followed if something has, then the removal is
counted. -/
theorem leaveChunk_done {kept : Span} (h : leaveChunk slot kept ref ix = .ok ⟨⟩ ix') :
    ∃ between, ix' = countRemoval between ∧
      let without :=
        { ix with chunks := ix.chunks.alter ref.bucket (·.bind (chunkWithout ref kept)) }
      (between = without ∨
        ∃ other move, repointChunk other ref.bucket move without = .ok ⟨⟩ between) := by
  unfold leaveChunk at h
  rw [get_bind] at h
  cases hbucket : ix.chunks[ref.bucket]? with
  | none =>
    rw [hbucket] at h
    cases h
  | some bucket =>
    cases hvalue : bucket.get ref.position with
    | error error =>
      simp only [hbucket, hvalue] at h
      cases h
    | ok value =>
      simp only [hbucket, hvalue, modify_bind] at h
      cases hmoved : bucket.moved ref.position with
      | none =>
        rw [hmoved] at h
        cases h
        exact ⟨_, rfl, .inl rfl⟩
      | some moved =>
        rw [hmoved] at h
        obtain ⟨_, between, hrepoint, hcount⟩ := exists_of_bind_eq_ok h
        cases hcount
        exact ⟨between, rfl, .inr ⟨_, _, hrepoint⟩⟩

theorem frame_of_repointChunk {chunk : Nat} {move : Relocation}
    (h : repointChunk slot chunk move ix = .ok ⟨⟩ ix') :
    ix'.withoutChunks = ix.withoutChunks ∧ ix'.chunks = ix.chunks := by
  obtain ⟨i, rfl⟩ := repointChunk_done h
  refine ⟨?_, rfl⟩
  rw [withoutChunks_countFixup]
  exact withoutChunks_modifySlot ix slot _ fun _ => rfl

theorem frame_of_leaveChunk {kept : Span} (h : leaveChunk slot kept ref ix = .ok ⟨⟩ ix') :
    ix'.withoutChunks = ix.withoutChunks ∧
      ix'.chunks = ix.chunks.alter ref.bucket (·.bind (chunkWithout ref kept)) := by
  obtain ⟨between, rfl, rfl | ⟨other, move, hrepoint⟩⟩ := leaveChunk_done h
  · exact ⟨rfl, rfl⟩
  · exact frame_of_repointChunk hrepoint

theorem leaveChunks_order {kept : Span} (hnodup : ((ix.chunkRefList slot).map (·.bucket)).Nodup)
    (h : leaveChunks slot kept ix = .ok ⟨⟩ ix') :
    ix'.withoutChunks = ix.withoutChunks ∧
      ix'.chunkEntries = Linked.vacate ix.chunkEntries (ix.chunkRefList slot) := by
  unfold leaveChunks at h
  rw [get_bind, modify_bind] at h
  refine (forM_preserves (motive := fun pending state =>
    (pending.map (·.bucket)).Nodup ∧ state.withoutChunks = ix.withoutChunks ∧
      Linked.vacate state.chunkEntries pending =
        Linked.vacate ix.chunkEntries (ix.chunkRefList slot)) ?_ ?_ h).2
  · rintro ref rest state state' ⟨hrest, hframe, horder⟩ hleave
    obtain ⟨hsame, hchunks⟩ := frame_of_leaveChunk hleave
    exact ⟨hrest.of_cons, hsame.trans hframe,
      (Linked.vacate_cons hrest (chunkEntries_leave hchunks)).trans horder⟩
  · exact ⟨hnodup, withoutChunks_modifySlot ix slot _ fun _ => rfl, rfl⟩

theorem frame_of_joinChunk {entry : ChunkEntry} {chunk : Nat}
    (h : joinChunk entry chunk ix = .ok ref ix') :
    ix' = { ix with chunks := ix'.chunks } ∧ ∀ key, ix'.chunkEntries key =
      if key = chunk then (ix.chunkEntries key).push entry else ix.chunkEntries key := by
  unfold joinChunk at h
  rw [get_bind] at h
  cases hbucket : ix.chunks[chunk]? with
  | none =>
    rw [hbucket] at h
    cases h
  | some bucket =>
    rw [hbucket] at h
    cases h
    exact ⟨rfl, chunkEntries_join rfl hbucket⟩

theorem joinChunks_order {entry : ChunkEntry} {ids : List Nat} {refs : List BackRef}
    (hnodup : ids.Nodup) (h : ids.mapM (joinChunk entry) ix = .ok refs ix') :
    ix' = { ix with chunks := ix'.chunks } ∧
      ix'.chunkEntries = Linked.occupy ix.chunkEntries ids entry := by
  have hdone := mapM_preserves (motive := fun pending state => pending.Nodup ∧
    state = { ix with chunks := state.chunks } ∧
      Linked.occupy state.chunkEntries pending entry =
        Linked.occupy ix.chunkEntries ids entry) ?_ ⟨hnodup, rfl, rfl⟩ h
  · rw [Linked.occupy_nil] at hdone
    exact hdone.2
  · rintro id pending ref state state' ⟨hpending, hframe, horder⟩ hjoin
    obtain ⟨hsame, hentries⟩ := frame_of_joinChunk hjoin
    refine ⟨hpending.of_cons, ?_, (Linked.occupy_cons hpending hentries).trans horder⟩
    rw [hsame, hframe]

/-! ## Tags -/

theorem repointTag_done {tag : Nat} {move : Relocation}
    (h : repointTag slot tag move ix = .ok ⟨⟩ ix') : ∃ i, ix' = countFixup
      (ix.modifySlot slot fun s =>
        { s with tagRefs := s.tagRefs.modify i (withPosition move.target) }) := by
  unfold repointTag at h
  rw [get_bind] at h
  cases hfound : refTo? (ix.tagRefs slot) tag move.source with
  | none =>
    rw [hfound] at h
    cases h
  | some i =>
    rw [hfound] at h
    cases h
    exact ⟨i, rfl⟩

theorem leaveTag_done (h : leaveTag slot ref ix = .ok ⟨⟩ ix') :
    ∃ between, ix' = countRemoval between ∧
      let without := { ix with tags := ix.tags.modify ref.bucket (·.swapPop ref.position) }
      (between = without ∨
        ∃ other move, repointTag other ref.bucket move without = .ok ⟨⟩ between) := by
  unfold leaveTag at h
  rw [get_bind] at h
  cases hbucket : ix.tags[ref.bucket]? with
  | none =>
    rw [hbucket] at h
    cases h
  | some bucket =>
    cases hvalue : bucket.get ref.position with
    | error error =>
      simp only [hbucket, hvalue] at h
      cases h
    | ok value =>
      simp only [hbucket, hvalue, modify_bind] at h
      cases hmoved : bucket.moved ref.position with
      | none =>
        rw [hmoved] at h
        cases h
        exact ⟨_, rfl, .inl rfl⟩
      | some moved =>
        rw [hmoved] at h
        obtain ⟨_, between, hrepoint, hcount⟩ := exists_of_bind_eq_ok h
        cases hcount
        exact ⟨between, rfl, .inr ⟨_, _, hrepoint⟩⟩

theorem frame_of_repointTag {tag : Nat} {move : Relocation}
    (h : repointTag slot tag move ix = .ok ⟨⟩ ix') :
    ix'.withoutTags = ix.withoutTags ∧ ix'.tags = ix.tags := by
  obtain ⟨i, rfl⟩ := repointTag_done h
  refine ⟨?_, rfl⟩
  rw [withoutTags_countFixup]
  exact withoutTags_modifySlot ix slot _ fun _ => rfl

theorem frame_of_leaveTag (h : leaveTag slot ref ix = .ok ⟨⟩ ix') :
    ix'.withoutTags = ix.withoutTags ∧
      ix'.tags = ix.tags.modify ref.bucket (·.swapPop ref.position) := by
  obtain ⟨between, rfl, rfl | ⟨other, move, hrepoint⟩⟩ := leaveTag_done h
  · exact ⟨rfl, rfl⟩
  · exact frame_of_repointTag hrepoint

theorem leaveTags_order (hnodup : ((ix.tagRefList slot).map (·.bucket)).Nodup)
    (h : leaveTags slot ix = .ok ⟨⟩ ix') :
    ix'.withoutTags = ix.withoutTags ∧ ix'.tags.size = ix.tags.size ∧
      ix'.tagSlots = Linked.vacate ix.tagSlots (ix.tagRefList slot) := by
  unfold leaveTags at h
  rw [get_bind, modify_bind] at h
  refine (forM_preserves (motive := fun pending state =>
    (pending.map (·.bucket)).Nodup ∧ state.withoutTags = ix.withoutTags ∧
      state.tags.size = ix.tags.size ∧
      Linked.vacate state.tagSlots pending =
        Linked.vacate ix.tagSlots (ix.tagRefList slot)) ?_ ?_ h).2
  · rintro ref rest state state' ⟨hrest, hframe, hcount, horder⟩ hleave
    obtain ⟨hsame, htags⟩ := frame_of_leaveTag hleave
    refine ⟨hrest.of_cons, hsame.trans hframe, ?_,
      (Linked.vacate_cons hrest (tagSlots_leave htags)).trans horder⟩
    rw [htags, Array.size_modify, hcount]
  · exact ⟨hnodup, withoutTags_modifySlot ix slot _ fun _ => rfl, rfl, rfl⟩

theorem joinTags_order {ids : List Nat} {refs : List BackRef} (hnodup : ids.Nodup)
    (hsize : ∀ tag ∈ ids, tag < ix.tags.size)
    (h : ids.mapM (joinTag slot) ix = .ok refs ix') :
    ix' = { ix with tags := ix'.tags } ∧
      ix'.tagSlots = Linked.occupy ix.tagSlots ids slot := by
  have hdone := mapM_preserves (motive := fun pending state => pending.Nodup ∧
    (∀ tag ∈ pending, tag < state.tags.size) ∧ state = { ix with tags := state.tags } ∧
      Linked.occupy state.tagSlots pending slot = Linked.occupy ix.tagSlots ids slot)
    ?_ ⟨hnodup, hsize, rfl, rfl⟩ h
  · rw [Linked.occupy_nil] at hdone
    exact hdone.2.2
  · rintro tag pending ref state state' ⟨hpending, hbounded, hframe, horder⟩ hjoin
    cases hjoin
    refine ⟨hpending.of_cons, ?_, ?_, ?_⟩
    · intro key hkey
      rw [Array.size_modify]
      exact hbounded key (List.mem_cons_of_mem _ hkey)
    · rw [hframe]
    · exact (Linked.occupy_cons hpending
        (tagSlots_join rfl (hbounded tag List.mem_cons_self))).trans horder

/-! ## The whole update -/

/-- What a replaced collider does to the order within the buckets. -/
structure Reordered (ix ix' : EntityIndex) (slot : Nat) (collider : Collider) : Prop where
  chunks : ix'.chunkEntries =
    Linked.occupy (Linked.vacate ix.chunkEntries (ix.chunkRefList slot))
      (Span.ofRect ix.grid collider.bounds).ids (.ofCollider ix.grid slot collider)
  tags : ix'.tagSlots =
    Linked.occupy (Linked.vacate ix.tagSlots (ix.tagRefList slot)) collider.tags.toList slot

theorem Consistent.reordered_replaceCollider (h : ix.Consistent) {collider : Collider}
    (hdone : replaceCollider slot collider ix = .ok ⟨⟩ ix') : Reordered ix ix' slot collider := by
  unfold replaceCollider at hdone
  rw [get_bind, modify_bind] at hdone
  obtain ⟨_, leftChunks, hleaveChunks, hdone⟩ := exists_of_bind_eq_ok hdone
  obtain ⟨_, left, hleaveTags, hdone⟩ := exists_of_bind_eq_ok hdone
  obtain ⟨chunkRefs, joined, hjoinChunks, hdone⟩ := exists_of_bind_eq_ok hdone
  obtain ⟨tagRefs, final, hjoinTags, hdone⟩ := exists_of_bind_eq_ok hdone
  cases hdone
  change leaveChunks slot _ (ix.openChunks _) = _ at hleaveChunks
  change List.mapM (joinChunk (.ofCollider ix.grid slot collider)) _ left = _ at hjoinChunks
  obtain ⟨hleftFrame, hleft⟩ := leaveChunks_order (by exact h.chunks.once slot) hleaveChunks
  have htagRefs : leftChunks.tagRefList = ix.tagRefList := tagRefList_of_withoutChunks hleftFrame
  have htagSlots : leftChunks.tagSlots = ix.tagSlots := tagSlots_of_withoutChunks hleftFrame
  have htagCount : leftChunks.tags.size = ix.tags.size := congrArg (·.tags.size) hleftFrame
  obtain ⟨htagsFrame, hcount, htagsLeft⟩ :=
    leaveTags_order (by rw [htagRefs]; exact h.tags.once slot) hleaveTags
  obtain ⟨hjoinedFrame, hjoined⟩ := joinChunks_order (Span.nodup_ids h.grid) hjoinChunks
  have htagCounts : ∀ tag ∈ collider.tags.toList, tag < joined.tags.size := by
    intro tag htag
    rw [hjoinedFrame]
    change tag < left.tags.size
    rw [hcount, htagCount, h.tagCount]
    exact TagSet.lt_of_mem_toList htag
  obtain ⟨hfinalFrame, hfinal⟩ := joinTags_order collider.tags.nodup_toList htagCounts hjoinTags
  constructor
  · change final.chunkEntries = _
    rw [hfinalFrame]
    change joined.chunkEntries = _
    rw [hjoined, chunkEntries_of_withoutTags htagsFrame, hleft, chunkEntries_openChunks]
    rfl
  · change final.tagSlots = _
    rw [hfinal, hjoinedFrame]
    change Linked.occupy left.tagSlots _ _ = _
    rw [htagsLeft, htagRefs, htagSlots]

end EntityIndex
end SpriteField
