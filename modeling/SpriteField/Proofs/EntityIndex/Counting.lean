import SpriteField.Proofs.Counter
import SpriteField.Proofs.EntityIndex.Effort
import SpriteField.Proofs.EntityIndex.Limit
import SpriteField.Proofs.EntityIndex.Order
import SpriteField.Proofs.EntityIndex.Replay
import SpriteField.Proofs.TagSet.Number

/-!
# What one call counts

An update counts once, counts one removal for every bucket that the slot leaves, and for each of
these at most one reference that it had to point elsewhere.  A search counts once, the candidates
that it has visited, and of these the ones that it has found.
-/

namespace SpriteField

namespace IndexCounters

/-- The counters after so many removals and so many references pointed elsewhere. -/
def left (c : IndexCounters) (removals fixups : Nat) : IndexCounters :=
  { c with
    membershipRemovals := c.membershipRemovals.increment (UInt64.ofNat removals)
    backReferenceFixups := c.backReferenceFixups.increment (UInt64.ofNat fixups) }

theorem left_left (c : IndexCounters) (removals fixups removals' fixups' : Nat) :
    (c.left removals fixups).left removals' fixups' =
      c.left (removals + removals') (fixups + fixups') := by
  simp [left]

/-- What counts between the two is that a slot has left so many buckets. -/
def Leaves (removals : Nat) (before after : IndexCounters) : Prop :=
  ∃ fixups ≤ removals, after = before.left removals fixups

theorem leaves_none (c : IndexCounters) : Leaves 0 c c :=
  ⟨0, le_rfl, by simp [left]⟩

theorem Leaves.trans {removals removals' : Nat} {before between after : IndexCounters}
    (h : Leaves removals before between) (h' : Leaves removals' between after) :
    Leaves (removals + removals') before after := by
  obtain ⟨fixups, hle, rfl⟩ := h
  obtain ⟨fixups', hle', rfl⟩ := h'
  exact ⟨fixups + fixups', Nat.add_le_add hle hle', left_left _ _ _ _ _⟩

/-- The counters after a search that was led by a tag or not, and has visited and found so many. -/
def searched (c : IndexCounters) (led visited found : Nat) : IndexCounters :=
  { c with
    searches := c.searches.increment 1
    tagDrivenSearches := c.tagDrivenSearches.increment (UInt64.ofNat led)
    candidatesVisited := c.candidatesVisited.increment (UInt64.ofNat visited)
    matchesReturned := c.matchesReturned.increment (UInt64.ofNat found) }

end IndexCounters

/-- Number of buckets that a collider puts its entity in. -/
def Collider.memberships (collider : Collider) (grid : Grid) : Nat :=
  (Span.ofRect grid collider.bounds).size + collider.tags.size

theorem Collider.memberships_blank (id : Nat) (grid : Grid) :
    (Collider.blank id).memberships grid = 0 := by
  have hspan : (Span.ofRect grid Rect.zero).size = 0 := by
    rw [Span.ofRect, Rect.hasArea_zero]
    rfl
  have htags : TagSet.empty.size = 0 := by decide
  exact congrArg₂ (· + ·) hspan htags

theorem Walk.size_found_visit_le (query : Query) (walk : Walk) (entry : ChunkEntry) :
    (walk.visit query entry).found.size ≤ walk.found.size + 1 := by
  rcases walk.found_visit query entry with hfound | hfound
  · rw [hfound]
    exact Nat.le_succ _
  · rw [hfound, Array.size_push]

/-- What is found has been visited. -/
theorem Walk.size_found_run_le (query : Query) (limit : Option Nat) (entries : List ChunkEntry)
    {walk : Walk} (h : walk.found.size ≤ walk.visited) :
    (run query limit entries walk).found.size ≤ (run query limit entries walk).visited := by
  induction entries generalizing walk with
  | nil => exact h
  | cons entry entries ih =>
    have hvisit : (walk.visit query entry).found.size ≤ (walk.visit query entry).visited := by
      rw [visited_visit]
      exact (size_found_visit_le query walk entry).trans (Nat.succ_le_succ h)
    rw [run]
    split
    · exact hvisit
    · exact ih hvisit

namespace EntityIndex

open IndexCounters

variable {ix ix' : EntityIndex} {slot : Nat} {s : Slot} {ref : BackRef} {call : Call}
  {collider : Collider}

/-! ## Leaving -/

theorem counters_repointChunk {chunk : Nat} {move : Relocation}
    (h : repointChunk slot chunk move ix = .ok ⟨⟩ ix') : ix'.counters = ix.counters.left 0 1 := by
  obtain ⟨i, rfl⟩ := repointChunk_done h
  simp [countFixup, left, EntityIndex.modifySlot]

theorem counters_repointTag {tag : Nat} {move : Relocation}
    (h : repointTag slot tag move ix = .ok ⟨⟩ ix') : ix'.counters = ix.counters.left 0 1 := by
  obtain ⟨i, rfl⟩ := repointTag_done h
  simp [countFixup, left, EntityIndex.modifySlot]

theorem leaves_countRemoval {before : IndexCounters} {fixups : Nat} (hle : fixups ≤ 1)
    (h : ix.counters = before.left 0 fixups) : Leaves 1 before (countRemoval ix).counters := by
  refine ⟨fixups, hle, ?_⟩
  simp [countRemoval, h, left]

theorem leaves_leaveChunk {kept : Span} (h : leaveChunk slot kept ref ix = .ok ⟨⟩ ix') :
    Leaves 1 ix.counters ix'.counters := by
  obtain ⟨between, rfl, rfl | ⟨other, move, hrepoint⟩⟩ := leaveChunk_done h
  · exact leaves_countRemoval (Nat.zero_le 1) (by simp [left])
  · have hcounters := counters_repointChunk hrepoint
    exact leaves_countRemoval le_rfl hcounters

theorem leaves_leaveTag (h : leaveTag slot ref ix = .ok ⟨⟩ ix') :
    Leaves 1 ix.counters ix'.counters := by
  obtain ⟨between, rfl, rfl | ⟨other, move, hrepoint⟩⟩ := leaveTag_done h
  · exact leaves_countRemoval (Nat.zero_le 1) (by simp [left])
  · have hcounters := counters_repointTag hrepoint
    exact leaves_countRemoval le_rfl hcounters

theorem leaves_forM {program : BackRef → IndexM PUnit} {refs : List BackRef}
    (h : refs.forM program ix = .ok ⟨⟩ ix')
    (step : ∀ ref ix ix', program ref ix = .ok ⟨⟩ ix' → Leaves 1 ix.counters ix'.counters) :
    Leaves refs.length ix.counters ix'.counters := by
  have hdone := forM_preserves (motive := fun pending state => ∃ done,
    done + pending.length = refs.length ∧ Leaves done ix.counters state.counters) ?_
    ⟨0, Nat.zero_add _, leaves_none _⟩ h
  · obtain ⟨done, hlength, hleaves⟩ := hdone
    rw [List.length_nil, Nat.add_zero] at hlength
    rwa [hlength] at hleaves
  · rintro ref pending state state' ⟨done, hlength, hleaves⟩ hstep
    refine ⟨done + 1, ?_, hleaves.trans (step _ _ _ hstep)⟩
    rw [← hlength, List.length_cons]
    omega

theorem leaves_leaveChunks {kept : Span} (h : leaveChunks slot kept ix = .ok ⟨⟩ ix') :
    Leaves (ix.chunkRefList slot).length ix.counters ix'.counters := by
  unfold leaveChunks at h
  rw [get_bind, modify_bind] at h
  have hleaves := leaves_forM h fun _ _ _ => leaves_leaveChunk
  exact hleaves

theorem leaves_leaveTags (h : leaveTags slot ix = .ok ⟨⟩ ix') :
    Leaves (ix.tagRefList slot).length ix.counters ix'.counters := by
  unfold leaveTags at h
  rw [get_bind, modify_bind] at h
  have hleaves := leaves_forM h fun _ _ _ => leaves_leaveTag
  exact hleaves

/-! ## Updates -/

theorem counters_joinTags {tags : List Nat} {refs : List BackRef}
    (h : tags.mapM (joinTag slot) ix = .ok refs ix') : ix'.counters = ix.counters := by
  refine mapM_preserves (motive := fun _ state => state.counters = ix.counters) ?_ rfl h
  intro tag pending ref state state' hsame hjoin
  cases hjoin
  exact hsame

/-- An update counts once, apart from what is left. -/
theorem Consistent.counters_replaceCollider (h : ix.Consistent) {collider : Collider}
    (hdone : replaceCollider slot collider ix = .ok ⟨⟩ ix') :
    ∃ counters, Leaves ((ix.chunkRefList slot).length + (ix.tagRefList slot).length)
        ix.counters counters ∧
      ix'.counters =
        { counters with colliderUpdates := ix.counters.colliderUpdates.increment 1 } := by
  unfold replaceCollider at hdone
  rw [get_bind, modify_bind] at hdone
  obtain ⟨_, leftChunks, hleaveChunks, hdone⟩ := exists_of_bind_eq_ok hdone
  obtain ⟨_, left, hleaveTags, hdone⟩ := exists_of_bind_eq_ok hdone
  obtain ⟨chunkRefs, joined, hjoinChunks, hdone⟩ := exists_of_bind_eq_ok hdone
  obtain ⟨tagRefs, final, hjoinTags, hdone⟩ := exists_of_bind_eq_ok hdone
  cases hdone
  change leaveChunks slot _ (ix.openChunks _) = _ at hleaveChunks
  obtain ⟨hframe, -⟩ := leaveChunks_order (by exact h.chunks.once slot) hleaveChunks
  have htagRefs : leftChunks.tagRefList = ix.tagRefList := tagRefList_of_withoutChunks hframe
  have hleft := (leaves_leaveChunks hleaveChunks).trans (leaves_leaveTags hleaveTags)
  rw [htagRefs] at hleft
  obtain ⟨hjoinedFrame, -⟩ := joinChunks_order (Span.nodup_ids h.grid) hjoinChunks
  have hjoined : joined.counters = left.counters := by
    rw [hjoinedFrame]
  have hfinal : final.counters = left.counters := (counters_joinTags hjoinTags).trans hjoined
  refine ⟨left.counters, hleft, ?_⟩
  obtain ⟨fixups, -, hcounters⟩ := hleft
  change { final.counters with
    colliderUpdates := final.counters.colliderUpdates.increment 1 } = _
  rw [hfinal, hcounters]
  rfl

theorem Consistent.length_refs (h : ix.Consistent) (hs : ix.slots[slot]? = some s) :
    (ix.chunkRefList slot).length + (ix.tagRefList slot).length =
      s.entity.collider.memberships ix.grid := by
  have hchunks := congrArg List.length (h.chunkRefList_bucket hs)
  have htags := congrArg List.length (h.tagRefList_bucket hs)
  rw [List.length_map, Span.length_ids] at hchunks
  rw [List.length_map, ← TagSet.size_eq_length_toList] at htags
  rw [hchunks, htags, Collider.memberships]

/-- The collider that a call gives to its entity, in place of the one that the index holds. -/
def Call.collider? (ix : EntityIndex) : Call → Option Collider
  | .set entity => some entity.collider
  | .setCollider collider => some collider
  | .setBounds id bounds => some { ix.colliderOf id with bounds }
  | .setTagSet id tags => some { ix.colliderOf id with tags }
  | .setTags id tags => some { ix.colliderOf id with tags := .ofList tags }
  | .setSprite _ _ | .getOrAdd _ | .searchAll _ | .search _ _ | .allVertices | .resetCounters =>
    none

@[simp] theorem counters_known (ix : EntityIndex) (id : Nat) :
    (ix.known id).counters = ix.counters := by
  unfold known
  split <;> rfl

theorem Consistent.collider_known (h : ix.Consistent) (id : Nat) : ∃ s : Slot,
    (ix.known id).slots[ix.slotNumber id]? = some s ∧ s.entity.collider = ix.colliderOf id := by
  obtain ⟨s, hs, -, hentity⟩ := h.getElem?_known id
  refine ⟨s, hs, ?_⟩
  rw [hentity, colliderOf]
  cases ix.get? id <;> rfl

theorem setTagSet_eq (id : Nat) (tags : TagSet) (ix : EntityIndex) :
    setTagSet id tags ix = setCollider { ix.colliderOf id with tags } ix := by
  unfold setTagSet
  rw [get_bind]

/-- Every call that gives an entity a collider replaces the one in the slot of the entity, and
counts nothing else. -/
theorem Consistent.exists_replaced (h : ix.Consistent) (hrefusal : call.refusal? = none)
    (hcollider : call.collider? ix = some collider) :
    ∃ ix', replaceCollider (ix.slotNumber collider.id) collider (ix.known collider.id) =
        .ok ⟨⟩ ix' ∧ (ix.after call).counters = ix'.counters := by
  have hset : ∀ {collider : Collider}, collider.bounds.isValid = true →
      ∃ ix', replaceCollider (ix.slotNumber collider.id) collider (ix.known collider.id) =
        .ok ⟨⟩ ix' ∧ (stateAfter (setCollider collider) ix).counters = ix'.counters := by
    intro collider hvalid
    obtain ⟨ix', hreplace, -⟩ := replaceCollider_known h hvalid
    refine ⟨ix', hreplace, ?_⟩
    rw [stateAfter_of_ok (setCollider_of_replace hvalid hreplace)]
  cases call with
  | set entity =>
    cases hcollider
    rw [Call.refusal?] at hrefusal
    split at hrefusal
    next hvalid =>
      obtain ⟨ix', hreplace, -⟩ := replaceCollider_known h hvalid
      have hdone := set_of_replace hvalid (Option.map_eq_none_iff.mp hrefusal) hreplace
      refine ⟨ix', hreplace, ?_⟩
      rw [EntityIndex.after, stateAfter_of_ok hdone]
      rfl
    next => cases hrefusal
  | setCollider collider =>
    cases hcollider
    rw [Call.refusal?] at hrefusal
    split at hrefusal
    next hvalid => exact hset hvalid
    next => cases hrefusal
  | setBounds id bounds =>
    cases hcollider
    rw [Call.refusal?] at hrefusal
    split at hrefusal
    next hvalid =>
      have hprogram : setBounds id bounds ix = setCollider { ix.colliderOf id with bounds } ix := by
        unfold setBounds
        rw [get_bind]
      rw [EntityIndex.after, stateAfter_congr hprogram]
      exact hset hvalid
    next => cases hrefusal
  | setTagSet id tags =>
    cases hcollider
    rw [EntityIndex.after, stateAfter_congr (setTagSet_eq id tags ix)]
    exact hset (isValid_colliderOf h id)
  | setTags id tags =>
    cases hcollider
    have hprogram : setTags id tags ix =
        setCollider { ix.colliderOf id with tags := .ofList tags } ix := by
      unfold setTags
      rw [TagSet.foldlM_set?_of_none (Option.map_eq_none_iff.mp hrefusal)]
      exact setTagSet_eq id (.ofList tags) ix
    rw [EntityIndex.after, stateAfter_congr hprogram]
    exact hset (isValid_colliderOf h id)
  | setSprite | getOrAdd | searchAll | search | allVertices | resetCounters => cases hcollider

theorem Consistent.counters_after (h : ix.Consistent) (hrefusal : call.refusal? = none)
    (hcollider : call.collider? ix = some collider) :
    ∃ counters,
      Leaves ((ix.colliderOf collider.id).memberships ix.grid) ix.counters counters ∧
      (ix.after call).counters =
        { counters with colliderUpdates := ix.counters.colliderUpdates.increment 1 } := by
  obtain ⟨ix', hreplace, hafter⟩ := h.exists_replaced hrefusal hcollider
  obtain ⟨s, hs, hold⟩ := h.collider_known collider.id
  have hreplaced := (h.known collider.id).counters_replaceCollider hreplace
  rw [(h.known collider.id).length_refs hs, hold, counters_known, grid_known] at hreplaced
  rwa [hafter]

/-! ## Searches -/

/-- Number of candidates that a search visits; a query that can match nothing has none. -/
def visits (ix : EntityIndex) (query : Query) (limit : Option Nat) : Nat :=
  if query.bounds.isValid && query.bounds.hasArea then (ix.scanned query limit).visited else 0

theorem size_scan_le (ix : EntityIndex) (query : Query) (limit : Option Nat) :
    (ix.scan query limit).1.size ≤ ix.visits query limit := by
  by_cases h : query.bounds.isValid = false ∨ query.bounds.hasArea = false
  · simp [scan_of_nothing h]
  · simp only [not_or, Bool.not_eq_false] at h
    rw [scan_of_hasArea h.1 h.2, visits, h.1, h.2]
    exact Walk.size_found_run_le query limit _ (Nat.zero_le _)

theorem counters_scan (ix : EntityIndex) (query : Query) (limit : Option Nat) :
    ∃ led ≤ 1, (ix.scan query limit).2.counters =
      ix.counters.searched led (ix.visits query limit) (ix.scan query limit).1.size := by
  by_cases h : query.bounds.isValid = false ∨ query.bounds.hasArea = false
  · have hvisits : ix.visits query limit = 0 := by
      rcases h with h | h <;> simp [visits, h]
    refine ⟨0, Nat.zero_le 1, ?_⟩
    rw [scan_of_nothing h, hvisits]
    simp [IndexCounters.searched]
  · simp only [not_or, Bool.not_eq_false] at h
    have hvisits : ix.visits query limit = (ix.scanned query limit).visited := by
      simp [visits, h]
    rw [scan_of_hasArea h.1 h.2, hvisits]
    cases hplan : ix.chosenPlan query with
    | chunks => exact ⟨0, Nat.zero_le 1, by simp [IndexCounters.searched, countersAfter]⟩
    | tag tag => exact ⟨1, le_rfl, rfl⟩

end EntityIndex
end SpriteField
