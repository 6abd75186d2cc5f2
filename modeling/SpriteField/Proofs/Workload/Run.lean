import SpriteField.Proofs.Config
import SpriteField.Proofs.Workload.Field
import SpriteField.Proofs.Workload.Glyphs
import SpriteField.Workload.Run

/-!
# How a run ends

A run checks its own work as it goes.  These checks never fail: a run that is not carried out was
given bounds that are not valid, or has filled its atlas.
-/

namespace SpriteField.Workload

open Simulation EntityIndex

/-- A result is as in `post`, or what was asked for was refused because it was too much. -/
def Ends (result : Except Failure α) (post : α → Prop) : Prop :=
  match result with
  | .ok value => post value
  | .error failure => ∃ error, failure = .engine error ∧ Expected error

theorem Ends.bind {result : Except Failure α} {next : α → Except Failure β} {middle : α → Prop}
    {post : β → Prop} (h : Ends result middle) (hnext : ∀ value, middle value →
      Ends (next value) post) : Ends (result >>= next) post := by
  cases result with
  | ok value => exact hnext value h
  | error failure => exact h

theorem ends_outcome {program : EStateM EngineError σ α} {state : σ} {post : α → σ → Prop}
    (h : EndsIn Expected program state post) :
    Ends (outcome (program state)) fun value => post value.1 value.2 := by
  unfold EndsIn at h
  cases hprogram : program state with
  | ok value state' =>
    rw [hprogram] at h
    exact h
  | error error state' =>
    rw [hprogram] at h
    exact ⟨error, rfl, h⟩

/-- A check that nothing fails is no reason to end. -/
theorem ends_mapError {result : Except EngineError α} {value : α} (h : result = .ok value) :
    Ends (result.mapError .engine) fun found => found = value := by
  rw [h]
  rfl

/-- The field is sound in the end and has all of its entities. -/
theorem ends_runField {grid : Grid} (hgrid : grid.validate = .ok ()) (s : Settings) :
    Ends (runField grid s) fun result => result.2.state.size = s.total := by
  have hnew : EntityIndex.new grid = .ok (onGrid grid) := by
    rw [EntityIndex.new, hgrid]
    rfl
  have hempty : Filled (onGrid grid) 0 := ⟨consistent_onGrid hgrid, rfl⟩
  unfold runField
  refine (ends_mapError hnew).bind ?_
  rintro _ rfl
  refine (ends_outcome (endsIn_populate_filled s hempty (.ofSeed s.seed))).bind ?_
  rintro ⟨_, field⟩ hfilled
  dsimp only at hfilled ⊢
  rw [if_pos hfilled.size_eq]
  have hframes : Keeps (Filled · s.total)
      ((List.range s.frames).foldlM (frame s field.state.size) default) :=
    .foldlM (fun tally number _ => keeps_frame s.total s field.state.size tally number) default
  refine (ends_outcome (hframes field hfilled)).bind ?_
  rintro ⟨tally, final⟩ hfinal
  refine (ends_mapError hfinal.consistent.check_eq_ok).bind ?_
  rintro _ -
  exact hfinal.size_eq

theorem ends_runGlyphs {limits : AtlasLimits} (hlimits : limits.validate = .ok ()) {s : Settings}
    (hglyphs : s.glyphs ≤ 2 ^ 31) (generator : Generator) :
    Ends (runGlyphs limits s generator) fun _ => True := by
  have hnew : TextureAtlas.new (⟨0⟩ : CountingTexture) limits =
      .ok (.ofAtlas ⟨0⟩ (Atlas.within limits)) := by
    rw [TextureAtlas.new, Atlas.new, hlimits]
    rfl
  have hempty : Ordered (.ofAtlas ⟨0⟩ (Atlas.within limits)) :=
    ⟨[], Atlas.packed_within hlimits⟩
  unfold runGlyphs
  refine (ends_mapError hnew).bind ?_
  rintro _ rfl
  refine (ends_outcome (keeps_packGlyphs hglyphs ⟨_, generator⟩ hempty)).bind ?_
  rintro ⟨_, glyphs⟩ hordered
  dsimp only at hordered ⊢
  rw [hordered.firstOverlap?_eq_none]
  trivial

/-- A run reports as many entities as the field has places, or it is refused because the settings
ask for too much. -/
theorem run_ends {config : EngineConfig} (hvalid : config.validate = .ok ()) {s : Settings}
    (hglyphs : s.glyphs ≤ 2 ^ 31) :
    Ends (run config s) fun report => report.entities = s.gridSide * s.gridSide := by
  obtain ⟨hgrid, hatlas⟩ := EngineConfig.validate_eq_ok hvalid
  unfold run
  refine (ends_runField hgrid s).bind ?_
  rintro ⟨tally, field⟩ hsize
  refine (ends_runGlyphs hatlas hglyphs field.generator).bind ?_
  intro texture _
  exact hsize

def failure? : Except Failure α → Option Failure
  | .ok _ => none
  | .error failure => some failure

/-- A run with one entity and one glyph ends in a report, unless its atlas is too small for the
glyph or its entity lies nowhere. -/
theorem run_ends_three_ways :
    let narrow : EngineConfig := ⟨.standard, ⟨4, 4⟩⟩
    let small : Settings := ⟨7, 1, .ofNat 24, 1, 8, 1⟩
    let astray : Settings := { small with spacing := .nan }
    EngineConfig.standard.validate = .ok () ∧ narrow.validate = .ok () ∧
      small.glyphs ≤ 2 ^ 31 ∧ astray.glyphs ≤ 2 ^ 31 ∧
      Ends (run .standard small) (fun report => report.entities = 1 * 1) ∧
      Ends (run narrow small) (fun report => report.entities = 1 * 1) ∧
      Ends (run .standard astray) (fun report => report.entities = 1 * 1) ∧
      (run .standard small).toOption.map (·.entities) = some 1 ∧
      failure? (run narrow small) = some (.engine (.atlasFull 14 10 4 4)) ∧
      failure? (run .standard astray) =
        some (.engine (.invalidBounds 0 ⟨.nan, .nan, .nan, .nan⟩)) := by
  intro narrow small astray
  have hstandard : EngineConfig.standard.validate = .ok () := rfl
  have hnarrow : narrow.validate = .ok () := rfl
  have hsmall : small.glyphs ≤ 2 ^ 31 := by decide
  have hastray : astray.glyphs ≤ 2 ^ 31 := by decide
  refine ⟨hstandard, hnarrow, hsmall, hastray, run_ends hstandard hsmall, run_ends hnarrow hsmall,
    run_ends hstandard hastray, ?_, ?_, ?_⟩
  · decide +kernel
  · decide +kernel
  · decide +kernel

end SpriteField.Workload
