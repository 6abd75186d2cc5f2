import SpriteField.Proofs.EntityIndex.Plans

/-!
# The effort of a search

A search compares the shortest bucket of the tags that it requires with the chunks of its query and
walks the smaller side.  The entries of the chunks are counted only until they are known to be more
than those of the bucket, which decides the same as counting all of them.  So whatever the plan, the
candidates that are visited are no more than either side has.
-/

namespace SpriteField

/-- By how much the counter has moved on. -/
def Counter.advance (before after : Counter) : Nat :=
  (after.value - before.value).toNat

namespace Counter

@[simp]
theorem advance_self (c : Counter) : c.advance c = 0 := by
  simp [advance]

@[simp]
theorem advance_increment (c : Counter) (amount : UInt64) :
    c.advance (c.increment amount) = amount.toNat := by
  rw [advance, increment, UInt64.add_comm, UInt64.add_sub_cancel]

end Counter

namespace Walk

theorem visited_visit (query : Query) (walk : Walk) (entry : ChunkEntry) :
    (walk.visit query entry).visited = walk.visited + 1 := by
  unfold visit
  split
  · rfl
  · split
    · rfl
    · split <;> rfl

theorem visited_run_le (query : Query) (limit : Option Nat) (entries : List ChunkEntry)
    (walk : Walk) : (run query limit entries walk).visited ≤ walk.visited + entries.length := by
  induction entries generalizing walk with
  | nil => exact Nat.le_refl _
  | cons entry entries ih =>
    have hrest := ih (walk.visit query entry)
    rw [visited_visit] at hrest
    rw [run, List.length_cons]
    split
    · rw [visited_visit]
      omega
    · omega

end Walk

namespace EntityIndex

variable {ix : EntityIndex} {query : Query}

/-! ## Counting until a limit is passed -/

/-- Adds sizes to a total and ends as soon as this is above the limit. -/
def exceeds (limit : Nat) : Nat → List Nat → Bool
  | _, [] => false
  | total, size :: sizes =>
    if limit < total + size then true else exceeds limit (total + size) sizes

theorem exceeds_eq {limit total : Nat} (h : total ≤ limit) (sizes : List Nat) :
    exceeds limit total sizes = decide (limit < total + sizes.sum) := by
  induction sizes generalizing total with
  | nil => simpa [exceeds] using h
  | cons size sizes ih =>
    rw [exceeds, List.sum_cons, ← Nat.add_assoc]
    split
    next hpassed => exact (decide_eq_true (by omega)).symm
    next hroom => exact ih (by omega)

def chunkSizes (ix : EntityIndex) (bounds : Rect) : List Nat :=
  (Span.ofRect ix.grid bounds).ids.map fun chunk => (ix.chunkEntries chunk).size

/-- Number of entries in all chunks that a rectangle overlaps. -/
def chunkTotal (ix : EntityIndex) (bounds : Rect) : Nat :=
  (ix.chunkSizes bounds).sum

def chunksExceed (ix : EntityIndex) (bounds : Rect) (limit : Nat) : Bool :=
  exceeds limit 0 (ix.chunkSizes bounds)

theorem chunksExceed_iff {bounds : Rect} {limit : Nat} :
    ix.chunksExceed bounds limit = true ↔ limit < ix.chunkTotal bounds := by
  rw [chunksExceed, exceeds_eq (Nat.zero_le limit), Nat.zero_add, decide_eq_true_iff, chunkTotal]

theorem length_chunkCandidates (ix : EntityIndex) (bounds : Rect) :
    (ix.chunkCandidates (Span.ofRect ix.grid bounds)).length = ix.chunkTotal bounds := by
  simp [chunkCandidates, chunkTotal, chunkSizes, chunkEntries, List.length_flatMap]

theorem length_tagCandidates_le (ix : EntityIndex) (tag : Nat) :
    (ix.tagCandidates tag).length ≤ (ix.tagBucket tag).size :=
  List.length_filterMap_le _ _

/-! ## The shortest bucket -/

/-- Size of the shortest bucket of the tags required, if there are any. -/
def shortestBucket? (ix : EntityIndex) (required : TagSet) : Option Nat :=
  (required.toList.map fun tag => (ix.tagBucket tag).size).min?

/-- A fold that keeps the element of least size ends at the least of all sizes. -/
theorem map_foldl_least (size : Nat → Nat) (tags : List Nat) (best : Nat) :
    (tags.foldl
      (fun best tag =>
        match best with
        | some other => if size tag < size other then tag else other
        | none => tag)
      (some best)).map size = some ((tags.map size).foldl min (size best)) := by
  induction tags generalizing best with
  | nil => rfl
  | cons tag tags ih =>
    rw [List.foldl_cons, List.map_cons, List.foldl_cons]
    dsimp only
    split
    next hless => rw [ih, Nat.min_eq_right hless.le]
    next hmore => rw [ih, Nat.min_eq_left (Nat.le_of_not_lt hmore)]

theorem shortestBucket?_eq (ix : EntityIndex) (required : TagSet) :
    ix.shortestBucket? required =
      (ix.narrowestTag? required).map fun tag => (ix.tagBucket tag).size := by
  unfold shortestBucket? narrowestTag?
  cases required.toList with
  | nil => rfl
  | cons tag tags =>
    exact (map_foldl_least (fun tag => (ix.tagBucket tag).size) tags tag).symm

/-! ## The plan -/

/-- The plan depends only on whether the chunks have been counted past the shortest bucket. -/
theorem chosenPlan_eq (ix : EntityIndex) (query : Query) :
    ix.chosenPlan query =
      match ix.narrowestTag? query.tags with
      | some tag =>
        if ix.chunksExceed query.bounds (ix.tagBucket tag).size then .tag tag else .chunks
      | none => .chunks := by
  unfold chosenPlan plan
  rw [Plan.candidates, length_chunkCandidates]
  cases ix.narrowestTag? query.tags with
  | none => rfl
  | some tag => simp only [chunksExceed_iff]

theorem length_candidates_le_chunkTotal (ix : EntityIndex) (query : Query) :
    ((ix.chosenPlan query).candidates ix query).length ≤ ix.chunkTotal query.bounds := by
  have hchunks : (Plan.chunks.candidates ix query).length = ix.chunkTotal query.bounds :=
    ix.length_chunkCandidates query.bounds
  rw [chosenPlan_eq]
  split
  next tag _ =>
    split
    next hexceed =>
      rw [chunksExceed_iff] at hexceed
      exact (ix.length_tagCandidates_le tag).trans hexceed.le
    next => exact hchunks.le
  next => exact hchunks.le

theorem length_candidates_le_shortest {shortest : Nat}
    (hshortest : ix.shortestBucket? query.tags = some shortest) :
    ((ix.chosenPlan query).candidates ix query).length ≤ shortest := by
  rw [shortestBucket?_eq] at hshortest
  obtain ⟨tag, hnarrowest, rfl⟩ := Option.map_eq_some_iff.mp hshortest
  rw [chosenPlan_eq, hnarrowest]
  dsimp only
  split
  next => exact ix.length_tagCandidates_le tag
  next hroom =>
    rw [chunksExceed_iff, Nat.not_lt] at hroom
    exact (ix.length_chunkCandidates query.bounds).le.trans hroom

/-! ## Searches -/

/-- The search has visited no more candidates than the chunks of the query have entries, nor more
than the shortest bucket of a required tag has. -/
structure Economical (ix after : EntityIndex) (query : Query) : Prop where
  chunks : ix.counters.candidatesVisited.advance after.counters.candidatesVisited ≤
    ix.chunkTotal query.bounds
  tags : ∀ shortest, ix.shortestBucket? query.tags = some shortest →
    ix.counters.candidatesVisited.advance after.counters.candidatesVisited ≤ shortest

theorem economical_self (ix : EntityIndex) (query : Query) : Economical ix ix query := by
  constructor
  · simp
  · simp

/-- The search has counted as led by a tag if a tag is required whose bucket is shorter than the
chunks of the query, and only then. -/
def Planned (ix after : EntityIndex) (query : Query) : Prop :=
  ix.counters.tagDrivenSearches.advance after.counters.tagDrivenSearches =
    if (ix.shortestBucket? query.tags).any (· < ix.chunkTotal query.bounds) then 1 else 0

theorem advance_visited_le (ix : EntityIndex) (query : Query) (limit : Option Nat) :
    ix.counters.candidatesVisited.advance (ix.scan query limit).2.counters.candidatesVisited ≤
      ((ix.chosenPlan query).candidates ix query).length := by
  by_cases h : query.bounds.isValid = false ∨ query.bounds.hasArea = false
  · simp [scan_of_nothing h]
  · simp only [not_or, Bool.not_eq_false] at h
    rw [scan_of_hasArea h.1 h.2]
    have hvisited : (ix.scanned query limit).visited ≤
        Walk.start.visited + ((ix.chosenPlan query).candidates ix query).length :=
      Walk.visited_run_le _ _ _ _
    calc ix.counters.candidatesVisited.advance
          (ix.counters.candidatesVisited.increment
            (UInt64.ofNat (ix.scanned query limit).visited))
        = (ix.scanned query limit).visited % 2 ^ 64 := by
          rw [Counter.advance_increment, UInt64.toNat_ofNat']
      _ ≤ (ix.scanned query limit).visited := Nat.mod_le _ _
      _ ≤ ((ix.chosenPlan query).candidates ix query).length := by
          simpa [Walk.start] using hvisited

theorem economical_scan (ix : EntityIndex) (query : Query) (limit : Option Nat) :
    Economical ix (ix.scan query limit).2 query := by
  have hvisited := ix.advance_visited_le query limit
  constructor
  · exact hvisited.trans (ix.length_candidates_le_chunkTotal query)
  · intro shortest hshortest
    exact hvisited.trans (length_candidates_le_shortest hshortest)

theorem advance_tagDriven (counters : IndexCounters) (plan : Plan) (walk : Walk) :
    counters.tagDrivenSearches.advance (countersAfter counters plan walk).tagDrivenSearches =
      match plan with
      | .chunks => 0
      | .tag _ => 1 := by
  cases plan with
  | chunks => exact Counter.advance_self _
  | tag tag => exact Counter.advance_increment _ 1

theorem planned_scan (hvalid : query.bounds.isValid = true) (harea : query.bounds.hasArea = true)
    (limit : Option Nat) : Planned ix (ix.scan query limit).2 query := by
  rw [Planned, scan_of_hasArea hvalid harea, advance_tagDriven, chosenPlan_eq, shortestBucket?_eq]
  cases ix.narrowestTag? query.tags with
  | none => simp
  | some tag =>
    rw [Option.map_some, Option.any_some]
    by_cases hexceed : (ix.tagBucket tag).size < ix.chunkTotal query.bounds
    · simp [chunksExceed_iff.mpr hexceed, hexceed]
    · simp [Bool.eq_false_iff.mpr (mt chunksExceed_iff.mp hexceed), hexceed]

/-- In whatever state, a search visits no more candidates than the chunks of its query have entries,
and no more than the shortest bucket of its tags; and it is led by a tag exactly if this bucket is
shorter than the chunks. -/
theorem searches_economical (ix : EntityIndex) (query : Query) :
    (Economical ix (ix.searchAll query).2 query ∧
      ∀ buffer, Economical ix (ix.search query buffer).2 query) ∧
    (query.bounds.isValid = true → query.bounds.hasArea = true →
      Planned ix (ix.searchAll query).2 query ∧
      ∀ buffer : Array Nat, 0 < buffer.size → Planned ix (ix.search query buffer).2 query) := by
  constructor
  · refine ⟨ix.economical_scan query none, ?_⟩
    intro buffer
    rcases Nat.eq_zero_or_pos buffer.size with hempty | hpos
    · rw [Array.eq_empty_of_size_eq_zero hempty, search_empty]
      exact ix.economical_self query
    · rw [search_of_pos query hpos]
      exact ix.economical_scan query _
  · intro hvalid harea
    refine ⟨planned_scan hvalid harea none, ?_⟩
    intro buffer hpos
    rw [search_of_pos query hpos]
    exact planned_scan hvalid harea _

/-- Three entities lie in one chunk.  Two required tags lead to the only entity that carries both;
without tags the chunk is walked, and a buffer of one place is full after the first entity. -/
theorem economical_with_and_without_tags :
    let square : Rect := .ofSize .zero .zero .one .one
    let ix := (onGrid .standard).run
      [.setCollider ⟨7, square, .ofList [3]⟩, .setCollider ⟨9, square, .ofList [3, 200]⟩,
        .setCollider ⟨1, square, .empty⟩]
    let tagged : Query := ⟨square, .ofList [3, 200], none⟩
    let plain : Query := ⟨square, .empty, none⟩
    square.isValid = true ∧ square.hasArea = true ∧ 0 < #[50].size ∧
      ix.chunkTotal square = 3 ∧ ix.shortestBucket? tagged.tags = some 1 ∧
      Planned ix (ix.searchAll tagged).2 tagged ∧
      ix.counters.candidatesVisited.advance (ix.searchAll tagged).2.counters.candidatesVisited ≤ 1 ∧
      Planned ix (ix.search plain #[50]).2 plain ∧
      ix.counters.candidatesVisited.advance
        (ix.search plain #[50]).2.counters.candidatesVisited = 1 := by
  intro square ix tagged plain
  have hvalid : square.isValid = true := by decide
  have harea : square.hasArea = true := by decide
  have hplace : 0 < #[50].size := by decide
  have htotal : ix.chunkTotal square = 3 := by decide +kernel
  have hshortest : ix.shortestBucket? tagged.tags = some 1 := by decide +kernel
  obtain ⟨⟨heconomical, -⟩, hplans⟩ := searches_economical ix tagged
  obtain ⟨htagged, -⟩ := hplans hvalid harea
  obtain ⟨-, hplain⟩ := (searches_economical ix plain).2 hvalid harea
  exact ⟨hvalid, harea, hplace, htotal, hshortest, htagged, heconomical.tags 1 hshortest,
    hplain #[50] hplace, by decide +kernel⟩

end EntityIndex

end SpriteField
