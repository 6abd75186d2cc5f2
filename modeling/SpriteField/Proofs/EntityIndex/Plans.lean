import SpriteField.Proofs.EntityIndex.Search

/-!
# Plans of a search

A search can walk the chunks of its query or the bucket of any tag that the query requires.  The
chunks hold copies of the colliders, and may hold an entity more than once; a tag leads to the
entities themselves.  All of these walks find the same entities, so the choice among them decides
how long a search takes and in which order it answers, and nothing else.
-/

namespace SpriteField
namespace EntityIndex

variable {ix : EntityIndex} {query : Query}

/-- The candidates that a plan has the search walk. -/
def Plan.candidates (plan : Plan) (ix : EntityIndex) (query : Query) : List ChunkEntry :=
  match plan with
  | .chunks => ix.chunkCandidates (Span.ofRect ix.grid query.bounds)
  | .tag wanted => ix.tagCandidates wanted

/-- The plan is one of those that answer the query: it walks a tag only if that is required. -/
def Plan.Serves (plan : Plan) (query : Query) : Prop :=
  match plan with
  | .chunks => True
  | .tag wanted => query.tags.contains wanted = true

/-- The ids that the walk of a plan finds, in the order in which it meets them. -/
def walked (ix : EntityIndex) (query : Query) (plan : Plan) : List Nat :=
  (Walk.run query none (plan.candidates ix query) .start).found.toList

/-- The plan that a search with this query takes. -/
def chosenPlan (ix : EntityIndex) (query : Query) : Plan :=
  ix.plan query.tags (Plan.chunks.candidates ix query)

theorem serves_chosenPlan (ix : EntityIndex) (query : Query) :
    (ix.chosenPlan query).Serves query := by
  unfold chosenPlan plan
  split
  next tag hnarrowest =>
    split
    · exact mem_of_narrowestTag? hnarrowest
    · trivial
  next => trivial

theorem Consistent.candidates_plan (h : ix.Consistent) {plan : Plan} (hserves : plan.Serves query) :
    Candidates ix query (plan.candidates ix query) := by
  cases plan with
  | chunks => exact h.candidates_chunks query
  | tag tag => exact h.candidates_tag query hserves

theorem Consistent.nodup_walked (h : ix.Consistent) {plan : Plan} (hserves : plan.Serves query) :
    (ix.walked query plan).Nodup :=
  (Walk.met_run (h.candidates_plan hserves).distinct).nodup

theorem Consistent.mem_walked (h : ix.Consistent) {plan : Plan} (hserves : plan.Serves query)
    (id : Nat) : id ∈ ix.walked query plan ↔
      ∃ entity ∈ ix.entities, entity.id = id ∧ query.acceptsEntity entity = true := by
  rw [walked, Array.mem_toList_iff]
  exact (h.candidates_plan hserves).mem_found id

theorem Consistent.walked_perm (h : ix.Consistent) {plan plan' : Plan}
    (hserves : plan.Serves query) (hserves' : plan'.Serves query) :
    (ix.walked query plan).Perm (ix.walked query plan') := by
  rw [List.perm_ext_iff_of_nodup (h.nodup_walked hserves) (h.nodup_walked hserves')]
  intro id
  rw [h.mem_walked hserves, h.mem_walked hserves']

/-- The walk of a search, which ends early if it finds as many entities as the limit allows. -/
def scanned (ix : EntityIndex) (query : Query) (limit : Option Nat) : Walk :=
  Walk.run query limit ((ix.chosenPlan query).candidates ix query) .start

/-- The counters after a search has walked the candidates of a plan. -/
def countersAfter (counters : IndexCounters) (plan : Plan) (walk : Walk) : IndexCounters :=
  { counters with
    searches := counters.searches.increment 1
    tagDrivenSearches :=
      match plan with
      | .chunks => counters.tagDrivenSearches
      | .tag _ => counters.tagDrivenSearches.increment 1
    candidatesVisited := counters.candidatesVisited.increment (UInt64.ofNat walk.visited)
    matchesReturned := counters.matchesReturned.increment (UInt64.ofNat walk.found.size) }

theorem scan_of_hasArea (hvalid : query.bounds.isValid = true)
    (harea : query.bounds.hasArea = true) (limit : Option Nat) :
    ix.scan query limit = ((ix.scanned query limit).found,
      { ix with counters :=
          countersAfter ix.counters (ix.chosenPlan query) (ix.scanned query limit) }) := by
  unfold EntityIndex.scan scanned
  simp only [hvalid, Span.isEmpty_ofRect, harea, Bool.not_true, Bool.or_self, Bool.false_eq_true,
    if_false]
  -- The plan is made after the search is counted, which no candidate depends on.
  split
  next hplan =>
    have hchosen : ix.chosenPlan query = .chunks := hplan
    rw [hchosen]
    rfl
  next tag hplan =>
    have hchosen : ix.chosenPlan query = .tag tag := hplan
    rw [hchosen]
    rfl

theorem scan_of_nothing (h : query.bounds.isValid = false ∨ query.bounds.hasArea = false)
    (limit : Option Nat) :
    ix.scan query limit = (#[],
      { ix with counters.searches := ix.counters.searches.increment 1 }) := by
  unfold EntityIndex.scan
  simp only [Span.isEmpty_ofRect]
  rcases h with h | h <;> simp [h]

theorem search_empty (ix : EntityIndex) (query : Query) : ix.search query #[] = ((0, #[]), ix) :=
  rfl

theorem search_of_pos (query : Query) {buffer : Array Nat} (h : 0 < buffer.size) :
    ix.search query buffer =
      (((ix.scan query (some buffer.size)).1.size,
        (ix.scan query (some buffer.size)).1 ++
          buffer.extract (ix.scan query (some buffer.size)).1.size buffer.size),
        (ix.scan query (some buffer.size)).2) := by
  unfold search
  rw [if_neg (by simpa using Array.ne_empty_of_size_pos h)]

/-- A search without a limit answers with the walk of the plan that it has chosen. -/
theorem searchAll_eq_walked (hvalid : query.bounds.isValid = true)
    (harea : query.bounds.hasArea = true) :
    (ix.searchAll query).1.toList = ix.walked query (ix.chosenPlan query) := by
  rw [searchAll, scan_of_hasArea hvalid harea]
  rfl

/-- Walking the bucket of a required tag and walking the chunks of the query come to the same, and
a search comes to what they come to. -/
structure PlansAgree (ix : EntityIndex) (query : Query) : Prop where
  chunks : (ix.walked query .chunks).Nodup
  tag : ∀ tag, query.tags.contains tag = true →
    (ix.walked query (.tag tag)).Nodup ∧
    (ix.walked query (.tag tag)).Perm (ix.walked query .chunks)
  search : (ix.searchAll query).1.toList = ix.walked query (ix.chosenPlan query) ∧
    (ix.searchAll query).1.toList.Perm (ix.walked query .chunks)

/-- In every state that calls reach from an empty index, all plans for a query find the same ids,
each once. -/
theorem run_plansAgree {grid : Grid} {start : EntityIndex} (hnew : new grid = .ok start)
    (calls : List Call) {query : Query} (hvalid : query.bounds.isValid = true)
    (harea : query.bounds.hasArea = true) : PlansAgree (start.run calls) query := by
  obtain ⟨h, -⟩ := consistent_run hnew calls
  have hsearch : ((start.run calls).searchAll query).1.toList =
      (start.run calls).walked query ((start.run calls).chosenPlan query) :=
    searchAll_eq_walked hvalid harea
  constructor
  · exact h.nodup_walked trivial
  · intro tag htag
    exact ⟨h.nodup_walked htag, h.walked_perm htag trivial⟩
  · refine ⟨hsearch, ?_⟩
    rw [hsearch]
    exact h.walked_perm (serves_chosenPlan _ query) trivial

/-- Two required tags whose buckets are in different orders, because an entity has left one. -/
theorem plansAgree_two_tags :
    let square : Rect := .ofSize .zero .zero .one .one
    let ix := (onGrid .standard).run
      [.setCollider ⟨1, square, .ofList [3]⟩, .setCollider ⟨7, square, .ofList [3, 200]⟩,
        .setCollider ⟨9, square, .ofList [3, 200]⟩, .setTags 1 []]
    let query : Query := ⟨square, .ofList [3, 200], none⟩
    new .standard = .ok (onGrid .standard) ∧ query.bounds.isValid = true ∧
      query.bounds.hasArea = true ∧ PlansAgree ix query ∧
      ix.walked query (.tag 3) = [9, 7] ∧ ix.walked query (.tag 200) = [7, 9] := by
  intro square ix query
  have hnew : new .standard = .ok (onGrid .standard) := rfl
  have hvalid : query.bounds.isValid = true := by decide
  have harea : query.bounds.hasArea = true := by decide
  exact ⟨hnew, hvalid, harea, run_plansAgree hnew _ hvalid harea, by decide +kernel,
    by decide +kernel⟩

end EntityIndex
end SpriteField
