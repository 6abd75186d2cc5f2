import SpriteField.Proofs.Config
import SpriteField.Proofs.Workload.FieldCounts
import SpriteField.Proofs.Workload.GlyphCounts
import SpriteField.Workload.Run

/-!
# What a report says

A run that is carried out has filled its field, gone through all frames and packed all rounds of
glyphs.  So its report has the counts of the field and of the glyphs, which are sums over the frames
and rounds, as words of the counters.
-/

namespace SpriteField.Workload

open Simulation EntityIndex

/-- A result that there is one of is as in `post`. -/
def Yields (result : Except Failure α) (post : α → Prop) : Prop :=
  ∀ value, result = .ok value → post value

theorem Yields.bind {result : Except Failure α} {next : α → Except Failure β} {middle : α → Prop}
    {post : β → Prop} (h : Yields result middle)
    (hnext : ∀ value, middle value → Yields (next value) post) :
    Yields (result >>= next) post := by
  intro final hfinal
  cases result with
  | ok value => exact hnext value (h value rfl) final hfinal
  | error failure => cases hfinal

theorem yields_pure {value : α} {post : α → Prop} (h : post value) :
    Yields (pure value) post := by
  rintro _ ⟨⟩
  exact h

theorem yields_outcome {allowed : EngineError → Prop} {program : EStateM EngineError σ α}
    {state : σ} {post : α → σ → Prop} (h : EndsIn allowed program state post) :
    Yields (outcome (program state)) fun value => post value.1 value.2 := by
  intro value hvalue
  unfold EndsIn at h
  cases hprogram : program state with
  | ok found state' =>
    rw [hprogram] at h hvalue
    cases hvalue
    exact h
  | error error state' =>
    rw [hprogram] at hvalue
    cases hvalue

/-- What made a result is known of it. -/
theorem yields_mapError {result : Except EngineError α} :
    Yields (result.mapError .engine) fun found => result = .ok found := by
  intro found hfound
  cases result with
  | ok value =>
    cases hfound
    rfl
  | error error => cases hfound

/-! ## The two halves of a run -/

theorem counted_onGrid {grid : Grid} (hgrid : grid.validate = .ok ()) :
    Counted (onGrid grid) 0 0 0 0 :=
  ⟨⟨consistent_onGrid hgrid, rfl⟩, {}, books_onGrid hgrid, rfl, rfl, rfl⟩

theorem yields_runField (grid : Grid) {s : Settings} (hpos : 0 < s.total) :
    Yields (runField grid s) fun result =>
      CountedFrames s s.frames result.1 result.2.state := by
  unfold runField
  refine yields_mapError.bind ?_
  intro index hnew
  obtain ⟨rfl, hgrid⟩ := new_eq_ok hnew
  refine (yields_outcome
    (endsIn_populate_counted s (counted_onGrid hgrid) (.ofSeed s.seed))).bind ?_
  rintro ⟨_, field⟩ hcounted
  dsimp only at hcounted ⊢
  rw [if_pos hcounted.filled.size_eq, hcounted.filled.size_eq]
  refine (yields_outcome (endsIn_frames s hpos hcounted)).bind ?_
  rintro ⟨tally, final⟩ hframes
  refine yields_mapError.bind ?_
  rintro _ -
  exact yields_pure hframes

theorem churned_ofAtlas {limits : AtlasLimits} (hlimits : limits.validate = .ok ()) :
    Churned (.ofAtlas ⟨0⟩ (Atlas.within limits)) 0 0 :=
  ⟨⟨[], Atlas.packed_within hlimits⟩, ⟨0, 0, le_rfl, rfl, rfl, rfl⟩, rfl, fun _ => rfl⟩

theorem yields_runGlyphs (limits : AtlasLimits) (s : Settings) (generator : Generator) :
    Yields (runGlyphs limits s generator) fun texture =>
      ∃ uploads ≤ 4, 0 < uploads ∧ Churned texture (4 * s.glyphs) uploads := by
  unfold runGlyphs
  refine yields_mapError.bind ?_
  intro texture hnew
  obtain ⟨hatlas, hstart⟩ := TextureAtlas.new_eq_ok hnew
  obtain ⟨hwithin, hlimits⟩ := Atlas.new_eq_ok hatlas
  rw [hwithin] at hstart
  subst hstart
  refine (yields_outcome (endsIn_packGlyphs s (churned_ofAtlas hlimits) generator)).bind ?_
  rintro ⟨_, glyphs⟩ hglyphs
  dsimp only at hglyphs ⊢
  split
  · rintro _ ⟨⟩
  · exact yields_pure hglyphs

/-! ## The report -/

/-- The report agrees with the settings and its parts with each other.  The counters are words, and
so is the sum of the ids that were found. -/
structure Agrees (s : Settings) (r : Report) : Prop where
  searches : r.indexCounters.searches.value.toNat = 2 * s.frames
  smallHits_lt : r.smallSearchHits < 2 ^ 64
  largeHits_lt : r.largeSearchHits < 2 ^ 64
  found_eq : r.indexCounters.matchesReturned.value =
    UInt64.ofNat r.smallSearchHits + UInt64.ofNat r.largeSearchHits
  toNat_found : r.smallSearchHits + r.largeSearchHits < 2 ^ 64 →
    r.indexCounters.matchesReturned.value.toNat = r.smallSearchHits + r.largeSearchHits
  updates : r.indexCounters.colliderUpdates.value.toNat = s.gridSide * s.gridSide +
    ∑ frame ∈ Finset.range s.frames, ((Finset.range (s.gridSide * s.gridSide)).filter
      fun id => id % max s.moveEvery 1 = frame % max s.moveEvery 1).card
  regions : r.atlasCounters.regionsPlaced.value.toNat =
    r.atlasCounters.freeListHits.value.toNat + r.atlasCounters.growths.value.toNat
  one_le_uploads : 1 ≤ r.atlasUploads
  uploads_le_four : r.atlasUploads ≤ 4

section Words

variable {s : Settings} (hside : s.gridSide ≤ 65535) (hframes : s.frames < 2 ^ 32)
include hside hframes

theorem Settings.frames_mul_total_lt : (s.frames + 1) * s.total < 2 ^ 64 :=
  calc (s.frames + 1) * s.total
      ≤ 2 ^ 32 * (65535 * 65535) := Nat.mul_le_mul hframes (Nat.mul_le_mul hside hside)
    _ < 2 ^ 64 := by decide

/-- The updates of a run fit a counter, because a frame moves every entity at most once. -/
theorem Settings.updates_lt :
    s.total + ∑ frame ∈ Finset.range s.frames, (movers s frame).length < 2 ^ 64 := by
  refine lt_of_le_of_lt ?_ (Settings.frames_mul_total_lt hside hframes)
  rw [Nat.succ_mul, Nat.add_comm]
  refine Nat.add_le_add_right ?_ _
  have hmoved : ∀ frame ∈ Finset.range s.frames, (movers s frame).length ≤ s.total := by
    intro frame _
    rw [length_movers]
    exact (Finset.card_filter_le _ _).trans_eq (Finset.card_range _)
  simpa using Finset.sum_le_card_nsmul _ _ _ hmoved

end Words

/-- The report of every run that is carried out agrees with its settings, and over as many frames in
a row as there are remainders every entity moves once. -/
theorem run_agrees {config : EngineConfig} {s : Settings} (hpos : 1 ≤ s.gridSide)
    (hside : s.gridSide ≤ 65535) (hframes : s.frames < 2 ^ 32) (hglyphs : s.glyphs < 2 ^ 32)
    {report : Report} (hrun : run config s = .ok report) :
    Agrees s report ∧ ∀ first id, id < s.gridSide * s.gridSide →
      ∑ frame ∈ Finset.Ico first (first + max s.moveEvery 1), (movers s frame).count id = 1 := by
  refine ⟨?_, fun first id hid => sum_count_movers first hid⟩
  have hyields : Yields (run config s) (Agrees s) := by
    unfold run
    refine (yields_runField config.grid (Nat.mul_pos hpos hpos)).bind ?_
    rintro ⟨tally, field⟩ ⟨⟨hfilled, l, hbooks, hupdates, hsearches, hfound⟩, hsmall, hlarge⟩
    refine (yields_runGlyphs config.atlas s field.generator).bind ?_
    rintro texture ⟨uploads, hle, hposUploads, hchurned⟩
    refine yields_pure ?_
    obtain ⟨hits, growths, hplaced, hhits, hgrowths, hregions⟩ := hchurned.placed
    have hfits := Settings.frames_mul_total_lt hside hframes
    have hupdatesLt := Settings.updates_lt hside hframes
    have htotal : s.frames * s.total ≤ (s.frames + 1) * s.total :=
      Nat.mul_le_mul_right _ (Nat.le_succ _)
    have hcount : field.state.counters.matchesReturned = .upTo (tally.small + tally.large) := by
      rw [hbooks.tallied.found, hfound]
    constructor
    · rw [hbooks.tallied.searches, hsearches, Counter.toNat_upTo (by omega)]
    · exact hsmall.trans_lt (htotal.trans_lt hfits)
    · exact hlarge.trans_lt (htotal.trans_lt hfits)
    · rw [hcount, Counter.upTo, UInt64.ofNat_add]
    · intro hsum
      rw [hcount, Counter.toNat_upTo hsum]
    · rw [hbooks.tallied.updates, hupdates, Counter.toNat_upTo hupdatesLt]
      simp only [length_movers]
      rfl
    · rw [hregions, hhits, hgrowths, Counter.toNat_upTo (by omega), Counter.toNat_upTo (by omega),
        Counter.toNat_upTo (by omega)]
    · rw [hchurned.uploads_eq]
      exact hposUploads
    · rw [hchurned.uploads_eq]
      exact hle
  exact hyields report hrun

/-- Nine entities, of which three move in each of four frames, and one glyph. -/
theorem agrees_nine_entities :
    let s : Settings := ⟨4, 3, .ofNat 8, 4, 3, 1⟩
    1 ≤ s.gridSide ∧ s.gridSide ≤ 65535 ∧ s.frames < 2 ^ 32 ∧ s.glyphs < 2 ^ 32 ∧
      ∃ report, run .standard s = .ok report ∧ Agrees s report ∧
        report.indexCounters.colliderUpdates.value.toNat = 9 + 4 * 3 ∧
        report.largeSearchHits = 4 ∧ report.atlasUploads = 1 := by
  intro s
  have hpos : 1 ≤ s.gridSide := by decide
  have hside : s.gridSide ≤ 65535 := by decide
  have hframes : s.frames < 2 ^ 32 := by decide
  have hglyphs : s.glyphs < 2 ^ 32 := by decide
  have hcounts : (run .standard s).toOption.map (fun report =>
      (report.largeSearchHits, report.atlasUploads)) = some (4, 1) := by decide +kernel
  refine ⟨hpos, hside, hframes, hglyphs, ?_⟩
  cases hrun : run .standard s with
  | error failure =>
    rw [hrun] at hcounts
    cases hcounts
  | ok report =>
    rw [hrun] at hcounts
    obtain ⟨hlarge, huploads⟩ := Prod.mk.inj (Option.some.inj hcounts)
    have hagrees := (run_agrees hpos hside hframes hglyphs hrun).1
    refine ⟨report, rfl, hagrees, ?_, hlarge, huploads⟩
    rw [hagrees.updates]
    decide

end SpriteField.Workload
