import SpriteField.Proofs.EntityIndex.Calls
import SpriteField.Proofs.Grid.Overlap

/-!
# What a search finds

A walk finds every accepted candidate once, as long as a candidate that comes more than once says
so.  Both kinds of candidates, the chunks of the query and a tag that it requires, have this
property and leave out no entity that the query accepts.
-/

namespace SpriteField

def Query.acceptsEntry (query : Query) (entry : ChunkEntry) : Bool :=
  query.accepts entry.id entry.bounds entry.tags

def Query.acceptsEntity (query : Query) (entity : Entity) : Bool :=
  query.accepts entity.id entity.collider.bounds entity.collider.tags

namespace Walk

variable {query : Query} {met : List ChunkEntry} {walk : Walk} {entry : ChunkEntry}

theorem run_none (query : Query) (entries : List ChunkEntry) (walk : Walk) :
    Walk.run query none entries walk = entries.foldl (Walk.visit query) walk := by
  induction entries generalizing walk with
  | nil => rfl
  | cons entry entries ih =>
    rw [Walk.run, if_neg (by simp), List.foldl_cons]
    exact ih _

/-- Candidates of one slot are the same candidate, and one that comes twice says so. -/
structure Distinct (entries : List ChunkEntry) : Prop where
  agree : ∀ e ∈ entries, ∀ e' ∈ entries, e.slot = e'.slot ∨ e.id = e'.id → e = e'
  once : entries.Pairwise fun e e' => e.slot = e'.slot → e.shared = true

/-- What a walk knows after the candidates in `met`. -/
structure Met (query : Query) (met : List ChunkEntry) (walk : Walk) : Prop where
  found : ∀ id, id ∈ walk.found ↔ ∃ e ∈ met, e.id = id ∧ query.acceptsEntry e = true
  nodup : walk.found.toList.Nodup
  seen : ∀ slot, walk.seen.contains slot = true ↔
    ∃ e ∈ met, e.slot = slot ∧ e.shared = true ∧ query.acceptsEntry e = true

theorem met_start (query : Query) : Met query [] .start := by
  constructor
  · simp [start]
  · simp [start]
  · simp [start]

theorem Met.visit_of_refused (h : Met query met walk) (hentry : query.acceptsEntry entry = false) :
    Met query (met ++ [entry]) { walk with visited := walk.visited + 1 } := by
  constructor
  · intro id
    simp [h.found, hentry]
  · exact h.nodup
  · intro slot
    simp [h.seen, hentry]

theorem nodup_push {found : Array Nat} {id : Nat} (h : found.toList.Nodup) (hid : id ∉ found) :
    (found.push id).toList.Nodup := by
  rw [Array.toList_push, ← List.concat_eq_append]
  exact h.concat (by simpa using hid)

theorem exists_mem_concat {p : ChunkEntry → Prop} :
    (∃ e ∈ met ++ [entry], p e) ↔ (∃ e ∈ met, p e) ∨ p entry := by
  simp [or_and_right, exists_or]

theorem Met.mem_push (h : Met query met walk) (hentry : query.acceptsEntry entry = true)
    (id : Nat) : id ∈ walk.found.push entry.id ↔
      ∃ e ∈ met ++ [entry], e.id = id ∧ query.acceptsEntry e = true := by
  rw [Array.mem_push, h.found, exists_mem_concat, hentry, @eq_comm _ id]
  simp

theorem Met.visit_again (h : Met query met walk) (hmem : entry ∈ met) :
    Met query (met ++ [entry]) { walk with visited := walk.visited + 1 } := by
  have hmet : ∀ e, e ∈ met ++ [entry] ↔ e ∈ met := by
    intro e
    simp only [List.mem_append, List.mem_singleton, or_iff_left_iff_imp]
    rintro rfl
    exact hmem
  constructor
  · intro id
    simp only [hmet]
    exact h.found id
  · exact h.nodup
  · intro slot
    simp only [hmet]
    exact h.seen slot

theorem Distinct.eq_of_concat (h : Distinct (met ++ [entry])) {e : ChunkEntry} (he : e ∈ met)
    (hsame : e.slot = entry.slot ∨ e.id = entry.id) : e = entry :=
  h.agree e (List.mem_append_left _ he) entry (by simp) hsame

theorem Distinct.not_mem_of_unshared (h : Distinct (met ++ [entry]))
    (hshared : entry.shared = false) : entry ∉ met := by
  intro hmem
  have honce := (List.pairwise_append.mp h.once).2.2 entry hmem entry (by simp) rfl
  simp [hshared] at honce

theorem Met.not_mem_of_unseen (h : Met query met walk) (haccepts : query.acceptsEntry entry = true)
    (hshared : entry.shared = true) (hseen : walk.seen.contains entry.slot = false) :
    entry ∉ met := by
  intro hmem
  have hcontains := (h.seen entry.slot).mpr ⟨entry, hmem, rfl, hshared, haccepts⟩
  simp [hseen] at hcontains

theorem Met.not_mem_found (h : Met query met walk) (hdistinct : Distinct (met ++ [entry]))
    (hnew : entry ∉ met) : entry.id ∉ walk.found := by
  intro hmem
  obtain ⟨e, he, hid, -⟩ := (h.found entry.id).mp hmem
  rw [hdistinct.eq_of_concat he (Or.inr hid)] at he
  exact hnew he

theorem Met.visit (h : Met query met walk) (hdistinct : Distinct (met ++ [entry])) :
    Met query (met ++ [entry]) (walk.visit query entry) := by
  unfold Walk.visit
  change Met query (met ++ [entry]) (if !query.acceptsEntry entry then _ else _)
  cases haccepts : query.acceptsEntry entry with
  | false => exact h.visit_of_refused haccepts
  | true =>
    cases hshared : entry.shared with
    | false =>
      have hnew := hdistinct.not_mem_of_unshared hshared
      constructor
      · exact h.mem_push haccepts
      · exact nodup_push h.nodup (h.not_mem_found hdistinct hnew)
      · intro slot
        simp [h.seen, hshared]
    | true =>
      cases hseen : walk.seen.contains entry.slot with
      | true =>
        obtain ⟨e, he, hslot, -, -⟩ := (h.seen entry.slot).mp hseen
        rw [hdistinct.eq_of_concat he (Or.inl hslot)] at he
        exact h.visit_again he
      | false =>
        have hnew := h.not_mem_of_unseen haccepts hshared hseen
        constructor
        · exact h.mem_push haccepts
        · exact nodup_push h.nodup (h.not_mem_found hdistinct hnew)
        · intro slot
          rw [exists_mem_concat, ← h.seen]
          simp [hshared, haccepts, or_comm]

/-- A walk over all candidates finds those that the query accepts, each once. -/
theorem met_run {entries : List ChunkEntry} (hdistinct : Distinct entries) :
    Met query entries (Walk.run query none entries .start) := by
  -- The walk is a fold, and `met` is what it has consumed.
  have hfold : ∀ (rest met : List ChunkEntry) (walk : Walk), Met query met walk →
      Distinct (met ++ rest) → Met query (met ++ rest) (rest.foldl (Walk.visit query) walk) := by
    intro rest
    induction rest with
    | nil =>
      intro met walk h _
      rw [List.append_nil]
      exact h
    | cons entry rest ih =>
      intro met walk h hdistinct
      rw [List.append_cons] at hdistinct ⊢
      have hprefix : Distinct (met ++ [entry]) := by
        constructor
        · intro e he e' he' heq
          exact hdistinct.agree e (List.mem_append_left _ he) e' (List.mem_append_left _ he') heq
        · exact (List.pairwise_append.mp hdistinct.once).1
      exact ih (met ++ [entry]) (walk.visit query entry) (h.visit hprefix) hdistinct
  rw [run_none]
  exact hfold entries [] .start (met_start query) hdistinct

end Walk

namespace EntityIndex

variable {ix : EntityIndex} {query : Query}

/-- The candidates are entities of the index, and none that the query accepts is missing. -/
structure Candidates (ix : EntityIndex) (query : Query) (entries : List ChunkEntry) : Prop where
  sound : ∀ e ∈ entries, ∃ s : Slot, ix.slots[e.slot]? = some s ∧ e.id = s.entity.id ∧
    e.bounds = s.entity.collider.bounds ∧ e.tags = s.entity.collider.tags
  complete : ∀ (slot : Nat) (s : Slot), ix.slots[slot]? = some s →
    query.acceptsEntity s.entity = true → ∃ e ∈ entries, e.slot = slot
  distinct : Walk.Distinct entries

theorem Candidates.mem_found {entries : List ChunkEntry} (h : Candidates ix query entries)
    (id : Nat) : id ∈ (Walk.run query none entries .start).found ↔
      ∃ entity ∈ ix.entities, entity.id = id ∧ query.acceptsEntity entity = true := by
  rw [(Walk.met_run h.distinct).found]
  constructor
  · rintro ⟨e, he, rfl, haccepts⟩
    obtain ⟨s, hs, hid, hbounds, htags⟩ := h.sound e he
    have hentity : s.entity ∈ ix.entities :=
      List.mem_map_of_mem (Array.mem_toList_iff.mpr (Array.mem_of_getElem? hs))
    refine ⟨s.entity, hentity, hid.symm, ?_⟩
    rw [Query.acceptsEntry, hid, hbounds, htags] at haccepts
    exact haccepts
  · rintro ⟨entity, hentity, rfl, haccepts⟩
    obtain ⟨s, hs, rfl⟩ := List.mem_map.mp hentity
    obtain ⟨slot, hslot⟩ := Array.mem_iff_getElem?.mp (Array.mem_toList_iff.mp hs)
    obtain ⟨e, he, rfl⟩ := h.complete slot s hslot haccepts
    obtain ⟨s', hs', hid, hbounds, htags⟩ := h.sound e he
    rw [hslot] at hs'
    cases hs'
    refine ⟨e, he, hid, ?_⟩
    rw [Query.acceptsEntry, hid, hbounds, htags]
    exact haccepts

theorem Consistent.slot_eq_of_id_eq (h : ix.Consistent) {slot slot' : Nat} {s s' : Slot}
    (hs : ix.slots[slot]? = some s) (hs' : ix.slots[slot']? = some s')
    (hid : s.entity.id = s'.entity.id) : slot = slot' := by
  have hslot := (h.slotOf_iff s.entity.id slot).mpr ⟨s, hs, rfl⟩
  have hslot' := (h.slotOf_iff s.entity.id slot').mpr ⟨s', hs', hid.symm⟩
  rw [hslot] at hslot'
  exact Option.some.inj hslot'

/-- Candidates that are made from the entities of their slots are the same if slot or id is. -/
theorem Consistent.agree (h : ix.Consistent) (make : Nat → Entity → ChunkEntry)
    (hmake : ∀ slot entity, (make slot entity).id = entity.id) {entries : List ChunkEntry}
    (hentries : ∀ e ∈ entries, ∃ s : Slot, ix.slots[e.slot]? = some s ∧ e = make e.slot s.entity) :
    ∀ e ∈ entries, ∀ e' ∈ entries, e.slot = e'.slot ∨ e.id = e'.id → e = e' := by
  intro e he e' he' hsame
  obtain ⟨s, hs, heq⟩ := hentries e he
  obtain ⟨s', hs', heq'⟩ := hentries e' he'
  have hslot : e.slot = e'.slot := by
    rcases hsame with hslot | hid
    · exact hslot
    · rw [heq, heq', hmake, hmake] at hid
      exact h.slot_eq_of_id_eq hs hs' hid
  rw [hslot, hs'] at hs
  cases hs
  rw [heq, heq', hslot]

/-! ## Candidates from the chunks -/

theorem mem_chunkCandidates {span : Span} {e : ChunkEntry} :
    e ∈ ix.chunkCandidates span ↔ ∃ chunk ∈ span.ids, e ∈ ix.chunkEntries chunk := by
  simp [chunkCandidates, chunkEntries]

theorem Consistent.shared_of_two_chunks (h : ix.Consistent) {chunk chunk' : Nat}
    (hne : chunk ≠ chunk') {e e' : ChunkEntry} (he : e ∈ ix.chunkEntries chunk)
    (he' : e' ∈ ix.chunkEntries chunk') (hslot : e.slot = e'.slot) : e.shared = true := by
  obtain ⟨s, hs, heq⟩ := h.current chunk e he
  obtain ⟨position, hposition⟩ := Array.mem_iff_getElem?.mp he
  obtain ⟨position', hposition'⟩ := Array.mem_iff_getElem?.mp he'
  have href := h.chunks.listed hposition
  have href' := h.chunks.listed hposition'
  rw [← hslot] at href'
  have hbuckets := h.chunkRefList_bucket hs
  have hmem : chunk ∈ (Span.ofRect ix.grid s.entity.collider.bounds).ids := by
    rw [← hbuckets]
    exact List.mem_map_of_mem (f := BackRef.bucket) href
  have hmem' : chunk' ∈ (Span.ofRect ix.grid s.entity.collider.bounds).ids := by
    rw [← hbuckets]
    exact List.mem_map_of_mem (f := BackRef.bucket) href'
  have hlength : 1 < (Span.ofRect ix.grid s.entity.collider.bounds).ids.length := by
    by_contra hle
    obtain ⟨only, honly⟩ := List.length_eq_one_iff.mp
      (show (Span.ofRect ix.grid s.entity.collider.bounds).ids.length = 1 by
        have := List.length_pos_of_mem hmem
        omega)
    rw [honly, List.mem_singleton] at hmem hmem'
    exact hne (hmem.trans hmem'.symm)
  rw [Span.length_ids] at hlength
  rw [heq]
  exact decide_eq_true hlength

theorem Consistent.distinct_chunkCandidates (h : ix.Consistent) (bounds : Rect) :
    Walk.Distinct (ix.chunkCandidates (Span.ofRect ix.grid bounds)) := by
  constructor
  · apply h.agree fun slot entity => .ofCollider ix.grid slot entity.collider
    · intro slot entity
      rfl
    · intro e he
      obtain ⟨chunk, -, he⟩ := mem_chunkCandidates.mp he
      exact h.current chunk e he
  · rw [chunkCandidates, List.pairwise_flatMap]
    constructor
    · intro chunk _
      refine (h.chunks.pairwise_owner_ne chunk).imp ?_
      intro e e' hne hslot
      exact absurd hslot hne
    · apply (Span.nodup_ids h.grid).imp
      intro chunk chunk' hne e he e' he' hslot
      exact h.shared_of_two_chunks hne (Array.mem_toList_iff.mp he) (Array.mem_toList_iff.mp he')
        hslot

theorem Consistent.candidates_chunks (h : ix.Consistent) (query : Query) :
    Candidates ix query (ix.chunkCandidates (Span.ofRect ix.grid query.bounds)) := by
  constructor
  · intro e he
    obtain ⟨chunk, -, he⟩ := mem_chunkCandidates.mp he
    obtain ⟨s, hs, heq⟩ := h.current chunk e he
    refine ⟨s, hs, ?_⟩
    rw [heq]
    exact ⟨rfl, rfl, rfl⟩
  · intro slot s hs haccepts
    have hcollides : query.bounds.collides s.entity.collider.bounds = true := by
      simp only [Query.acceptsEntity, Query.accepts, Bool.and_eq_true] at haccepts
      exact haccepts.1.2
    -- Colliding rectangles share a chunk, and the entity has an entry in each of its own.
    obtain ⟨chunk, hquery, hchunk⟩ := Span.exists_common_id h.grid hcollides
    rw [← h.chunkRefList_bucket hs] at hchunk
    obtain ⟨ref, href, rfl⟩ := List.mem_map.mp hchunk
    obtain ⟨e, he, howner⟩ := h.chunks.named href
    exact ⟨e, mem_chunkCandidates.mpr ⟨_, hquery, Array.mem_of_getElem? he⟩, howner⟩
  · exact h.distinct_chunkCandidates query.bounds

/-! ## Candidates from a tag -/

theorem mem_tagCandidates {tag : Nat} {e : ChunkEntry} :
    e ∈ ix.tagCandidates tag ↔ ∃ s : Slot, e.slot ∈ ix.tagSlots tag ∧
      ix.slots[e.slot]? = some s ∧
      e = ⟨e.slot, s.entity.id, s.entity.collider.bounds, s.entity.collider.tags, false⟩ := by
  rw [tagCandidates, List.mem_filterMap]
  constructor
  · rintro ⟨slot, hslot, hentry⟩
    obtain ⟨s, hs, rfl⟩ := Option.map_eq_some_iff.mp hentry
    exact ⟨s, Array.mem_toList_iff.mp hslot, hs, rfl⟩
  · rintro ⟨s, hslot, hs, heq⟩
    exact ⟨e.slot, Array.mem_toList_iff.mpr hslot, by rw [hs, Option.map_some, ← heq]⟩

theorem Consistent.distinct_tagCandidates (h : ix.Consistent) (tag : Nat) :
    Walk.Distinct (ix.tagCandidates tag) := by
  constructor
  · apply h.agree fun slot entity =>
      ⟨slot, entity.id, entity.collider.bounds, entity.collider.tags, false⟩
    · intro slot entity
      rfl
    · intro e he
      obtain ⟨s, -, hs, heq⟩ := mem_tagCandidates.mp he
      exact ⟨s, hs, heq⟩
  · rw [tagCandidates, List.pairwise_filterMap]
    refine (h.tags.pairwise_owner_ne tag).imp ?_
    intro slot slot' hne e he e' he' hslot
    obtain ⟨s, -, rfl⟩ := Option.map_eq_some_iff.mp he
    obtain ⟨s', -, rfl⟩ := Option.map_eq_some_iff.mp he'
    exact absurd hslot hne

theorem Consistent.candidates_tag (h : ix.Consistent) (query : Query) {tag : Nat}
    (htag : query.tags.contains tag = true) :
    Candidates ix query (ix.tagCandidates tag) := by
  constructor
  · intro e he
    obtain ⟨s, -, hs, heq⟩ := mem_tagCandidates.mp he
    refine ⟨s, hs, ?_⟩
    rw [heq]
    exact ⟨rfl, rfl, rfl⟩
  · intro slot s hs haccepts
    have hrequired : s.entity.collider.tags.containsAll query.tags = true := by
      simp only [Query.acceptsEntity, Query.accepts, Bool.and_eq_true] at haccepts
      exact haccepts.2
    have hmem : tag ∈ s.entity.collider.tags.toList :=
      (TagSet.mem_toList _ tag).mpr (TagSet.contains_of_containsAll hrequired htag)
    rw [← h.tagRefList_bucket hs] at hmem
    obtain ⟨ref, href, rfl⟩ := List.mem_map.mp hmem
    obtain ⟨found, hfound, howner⟩ := h.tags.named href
    rw [id_eq] at howner
    rw [howner] at hfound
    exact ⟨⟨slot, _, _, _, false⟩, mem_tagCandidates.mpr ⟨s, Array.mem_of_getElem? hfound, hs, rfl⟩,
      rfl⟩
  · exact h.distinct_tagCandidates tag

/-! ## Searches -/

/-- A fold that keeps its best element or takes the next one ends at one of the elements. -/
theorem mem_of_foldl_eq_some {choose : Option Nat → Nat → Option Nat}
    (hchoose : ∀ best next, choose best next = some next ∨ choose best next = best)
    {tags : List Nat} {best : Option Nat} {tag : Nat} (h : tags.foldl choose best = some tag) :
    tag ∈ tags ∨ best = some tag := by
  induction tags generalizing best with
  | nil => exact Or.inr h
  | cons next tags ih =>
    rw [List.foldl_cons] at h
    rcases ih h with hmem | hnext
    · exact Or.inl (List.mem_cons_of_mem _ hmem)
    · rcases hchoose best next with htaken | hkept
      · rw [htaken] at hnext
        rw [Option.some.inj hnext]
        exact Or.inl List.mem_cons_self
      · rw [hkept] at hnext
        exact Or.inr hnext

theorem mem_of_narrowestTag? {required : TagSet} {tag : Nat}
    (h : ix.narrowestTag? required = some tag) : required.contains tag = true := by
  rw [← TagSet.mem_toList]
  unfold narrowestTag? at h
  refine (mem_of_foldl_eq_some ?_ h).resolve_right (by simp)
  intro best next
  cases best with
  | none => exact Or.inl rfl
  | some other =>
    dsimp only
    split
    · exact Or.inl rfl
    · exact Or.inr rfl

theorem scan_of_invalid (h : query.bounds.isValid = false) (limit : Option Nat) :
    (ix.scan query limit).1 = #[] := by
  simp [scan, h]

/-- A query without area finds nothing; any other one walks candidates of one of the two kinds. -/
theorem Consistent.scan_cases (h : ix.Consistent) (hvalid : query.bounds.isValid = true)
    (limit : Option Nat) :
    (query.bounds.hasArea = false ∧ (ix.scan query limit).1 = #[]) ∨
      ∃ entries, Candidates ix query entries ∧
        (ix.scan query limit).1 = (Walk.run query limit entries .start).found := by
  unfold EntityIndex.scan
  simp only [hvalid, Span.isEmpty_ofRect]
  cases harea : query.bounds.hasArea with
  | false => exact Or.inl ⟨rfl, rfl⟩
  | true =>
    right
    simp only [Bool.not_true, Bool.or_self, Bool.false_eq_true, if_false]
    split
    next => exact ⟨_, h.candidates_chunks query, rfl⟩
    next tag hplan =>
      unfold plan at hplan
      split at hplan
      next narrowest hnarrowest =>
        split at hplan
        · cases hplan
          exact ⟨_, h.candidates_tag query (mem_of_narrowestTag? hnarrowest), rfl⟩
        · cases hplan
      next => cases hplan

theorem acceptsEntity_of_not_hasArea (h : query.bounds.hasArea = false) (entity : Entity) :
    query.acceptsEntity entity = false := by
  simp [Query.acceptsEntity, Query.accepts, Rect.collides, h]

theorem Consistent.searchAll (h : ix.Consistent) (hvalid : query.bounds.isValid = true) :
    (ix.searchAll query).1.toList.Nodup ∧ ∀ id, id ∈ (ix.searchAll query).1 ↔
      ∃ entity ∈ ix.entities, entity.id = id ∧ query.acceptsEntity entity = true := by
  unfold EntityIndex.searchAll
  rcases h.scan_cases hvalid none with ⟨harea, hempty⟩ | ⟨entries, hcandidates, hfound⟩
  · rw [hempty]
    simp [acceptsEntity_of_not_hasArea harea]
  · rw [hfound]
    exact ⟨(Walk.met_run hcandidates.distinct).nodup, hcandidates.mem_found⟩

/-- In every state that calls reach from an empty index, a search answers with the ids that testing
one entity after the other would find, each once. -/
theorem searchAll_eq_bruteForce {grid : Grid} {start : EntityIndex} (hnew : new grid = .ok start)
    (calls : List Call) (query : Query) :
    (query.bounds.isValid = true →
      ((start.run calls).searchAll query).1.toList.Nodup ∧
      ∀ id, id ∈ ((start.run calls).searchAll query).1 ↔
        ∃ entity ∈ (start.run calls).entities, entity.id = id ∧
          query.accepts entity.id entity.collider.bounds entity.collider.tags = true) ∧
    (query.bounds.isValid = false → ((start.run calls).searchAll query).1 = #[]) := by
  obtain ⟨hconsistent, -⟩ := consistent_run hnew calls
  constructor
  · intro hvalid
    exact hconsistent.searchAll hvalid
  · intro hinvalid
    exact scan_of_invalid hinvalid none

/-- Two entities lie across two chunks, and one of them carries the required tag. -/
theorem searchAll_across_chunks :
    let calls : List Call :=
      [.setCollider ⟨7, .ofSize .zero .zero (.ofNat 40) .one, .ofList [3]⟩,
        .setCollider ⟨9, .ofSize .zero .zero (.ofNat 40) .one, .empty⟩]
    let query : Query := ⟨.ofSize .zero .zero (.ofNat 64) .one, .ofList [3], none⟩
    let found := (((onGrid .standard).run calls).searchAll query).1
    new .standard = .ok (onGrid .standard) ∧ query.bounds.isValid = true ∧
      found.toList.Nodup ∧ 7 ∈ found ∧ 9 ∉ found := by
  intro calls query found
  have hnew : new .standard = .ok (onGrid .standard) := rfl
  have hvalid : query.bounds.isValid = true := by decide
  obtain ⟨hnodup, hmem⟩ := (searchAll_eq_bruteForce hnew calls query).1 hvalid
  have hseven : ∃ entity ∈ ((onGrid .standard).run calls).entities, entity.id = 7 ∧
      query.accepts entity.id entity.collider.bounds entity.collider.tags = true := by
    decide +kernel
  have hnine : ¬∃ entity ∈ ((onGrid .standard).run calls).entities, entity.id = 9 ∧
      query.accepts entity.id entity.collider.bounds entity.collider.tags = true := by
    decide +kernel
  exact ⟨hnew, hvalid, hnodup, (hmem 7).mpr hseven, fun h => hnine ((hmem 9).mp h)⟩

end EntityIndex

end SpriteField
