import SpriteField.Proofs.EntityIndex.Replay
import SpriteField.Proofs.Workload.Simulation
import SpriteField.Workload.Field

/-!
# The field of a run

The field is filled in the order of the ids, so that in the end it holds exactly the ids below the
number of entities.  Moving and searching keep it so, and a call on it is refused for the call's own
sake only: its index never is the reason.
-/

namespace SpriteField.Workload

open Simulation EntityIndex

/-- The index holds the entities whose ids are below `count`, in the order of their ids. -/
structure Filled (ix : EntityIndex) (count : Nat) : Prop where
  consistent : ix.Consistent
  ids : ix.ids = List.range count

namespace Filled

variable {ix : EntityIndex} {count : Nat}

theorem size_eq (h : Filled ix count) : ix.size = count := by
  have hlength := congrArg List.length h.ids
  simpa [EntityIndex.ids, EntityIndex.entities, EntityIndex.size] using hlength

theorem lt_of_get? (h : Filled ix count) {id : Nat} {entity : Entity}
    (hget : ix.get? id = some entity) : id < count := by
  rw [← List.mem_range, ← h.ids, h.consistent.mem_ids_iff]
  cases hslot : ix.slotOf[id]? with
  | none =>
    rw [get?_of_none hslot] at hget
    cases hget
  | some slot => exact ⟨slot, rfl⟩

theorem exists_get? (h : Filled ix count) {id : Nat} (hid : id < count) :
    ∃ entity, ix.get? id = some entity := by
  rw [← List.mem_range, ← h.ids, h.consistent.mem_ids_iff] at hid
  obtain ⟨slot, hslot⟩ := hid
  obtain ⟨s, hs, -⟩ := (h.consistent.slotOf_iff id slot).mp hslot
  exact ⟨s.entity, by rw [get?_of_slotOf hslot, hs]; rfl⟩

/-- A call is refused for its own sake, and otherwise the ids change as it says. -/
theorem endsIn_call (h : Filled ix count) (call : Call) :
    EndsIn (fun error => call.refusal? = some error) call.program ix fun _ ix' =>
      ix'.Consistent ∧ ix'.ids = (call.target ix).ids := by
  cases hrefusal : call.refusal? with
  | some error => exact .of_error (h.consistent.refused hrefusal) rfl
  | none =>
    obtain ⟨ix', hdone, hconsistent, hframe⟩ := h.consistent.performs hrefusal
    refine .of_ok hdone ⟨hconsistent, ?_⟩
    rw [← ids_withoutMemberships, hframe, ids_withoutMemberships]

theorem endsIn_set (h : Filled ix count) {entity : Entity} (hid : entity.id = count)
    (hsprite : spriteFault? entity.sprite = none) :
    EndsIn Expected (EntityIndex.set entity) ix fun _ ix' => Filled ix' (count + 1) := by
  refine (h.endsIn_call (.set entity)).mono ?_ ?_
  · intro error hrefusal
    rw [Call.refusal?, hsprite] at hrefusal
    split at hrefusal
    next => cases hrefusal
    next hinvalid =>
      cases hrefusal
      exact .invalidBounds (Bool.eq_false_iff.mpr hinvalid)
  · rintro _ ix' ⟨hconsistent, hids⟩
    have hnew : count ∉ ix.ids := by
      rw [h.ids, List.mem_range]
      exact Nat.lt_irrefl count
    refine ⟨hconsistent, ?_⟩
    rw [hids, h.consistent.ids_target]
    change (if entity.id ∈ ix.ids then ix.ids else ix.ids ++ [entity.id]) = _
    rw [hid, if_neg hnew, h.ids, List.range_succ]

theorem endsIn_setBounds (h : Filled ix count) {id : Nat} (hid : id < count) (bounds : Rect) :
    EndsIn Expected (EntityIndex.setBounds id bounds) ix fun _ ix' => Filled ix' count := by
  refine (h.endsIn_call (.setBounds id bounds)).mono ?_ ?_
  · intro error hrefusal
    rw [Call.refusal?] at hrefusal
    split at hrefusal
    next => cases hrefusal
    next hinvalid =>
      cases hrefusal
      exact .invalidBounds (Bool.eq_false_iff.mpr hinvalid)
  · rintro _ ix' ⟨hconsistent, hids⟩
    have hold : id ∈ ix.ids := by
      rw [h.ids, List.mem_range]
      exact hid
    refine ⟨hconsistent, ?_⟩
    rw [hids, h.consistent.ids_target]
    change (if id ∈ ix.ids then ix.ids else ix.ids ++ [id]) = _
    rw [if_pos hold, h.ids]

/-- Searching and drawing change no entity. -/
theorem search (h : Filled ix count) (query : Query) (buffer : Array Nat) :
    Filled (ix.search query buffer).2 count := by
  obtain ⟨counters, hcounters⟩ := exists_counters_search ix query buffer
  rw [hcounters]
  exact ⟨h.consistent.congr rfl rfl rfl rfl rfl, h.ids⟩

theorem allVertices (h : Filled ix count) : Filled ix.allVertices.2 count := by
  obtain ⟨drawn, stale, hredraw⟩ := exists_redraw_eq ix
  change Filled ix.redraw count
  rw [hredraw]
  exact ⟨h.consistent.congr rfl rfl rfl rfl rfl, h.ids⟩

end Filled

/-! ## Filling the field -/

/-- The depths of the field's sprites are whole numbers below four. -/
theorem spriteFault?_fieldEntity (s : Settings) (row column extra : Nat) :
    spriteFault? (fieldEntity s row column extra).sprite = none := by
  have hdepth : ∀ depth < 4, spriteFault? { Sprite.plain with
      texture := ⟨.zero, .zero, .one, .one⟩
      depth := .ofNat depth } = none := by decide
  exact hdepth _ (Nat.mod_lt _ (by decide))

/-- The entities are set in the order of their ids, so `motive` holds of the whole field if each new
one carries it from the number of entities before to the number after. -/
theorem endsIn_populate (s : Settings) {motive : Nat → EntityIndex → Prop}
    (step : ∀ (count : Nat) (ix : EntityIndex) (entity : Entity), motive count ix →
      entity.id = count → spriteFault? entity.sprite = none →
      EndsIn Expected (EntityIndex.set entity) ix fun _ => motive (count + 1))
    {ix : EntityIndex} (h : motive 0 ix) (generator : Generator) :
    EndsIn Expected (populate s) ⟨ix, generator⟩ fun _ sim => motive s.total sim.state := by
  unfold populate
  refine .forM_range (motive := fun row (sim : Simulation EntityIndex) =>
    motive (row * s.gridSide) sim.state) ?_ ?_
  · intro row hrow sim hrows
    rw [Nat.succ_mul]
    refine .forM_range (motive := fun column (sim : Simulation EntityIndex) =>
      motive (row * s.gridSide + column) sim.state) ?_ hrows
    intro column hcolumn sim hcolumns
    have hsample : Keeps (motive (row * s.gridSide + column)) (sample (·.below 12)) := .sample _
    refine (hsample sim hcolumns).bind ?_
    intro extra between hbetween
    exact endsIn_onState (step _ _ _ hbetween rfl (spriteFault?_fieldEntity s row column extra))
  · rwa [Nat.zero_mul]

theorem endsIn_populate_filled (s : Settings) {ix : EntityIndex} (h : Filled ix 0)
    (generator : Generator) :
    EndsIn Expected (populate s) ⟨ix, generator⟩ fun _ sim => Filled sim.state s.total :=
  endsIn_populate s (motive := fun count ix => Filled ix count)
    (fun _ _ _ hfilled hid hsprite => hfilled.endsIn_set hid hsprite) h generator

/-! ## Frames -/

theorem keeps_sampleStep {inv : σ → Prop} : Keeps inv (sampleStep : SimulationM σ Binary32) :=
  (Keeps.sample _).bind fun _ => .pure _

/-- Only an entity that is found is moved, and it keeps its id. -/
theorem keeps_move (count id : Nat) : Keeps (Filled · count) (move id) := by
  refine .get_bind ?_
  intro sim hsim
  dsimp only
  split
  next => exact .pure _
  next entity hget =>
    have hid := hsim.lt_of_get? hget
    refine keeps_sampleStep.bind fun dx => keeps_sampleStep.bind fun dy => ?_
    exact .onState fun ix hix => hix.endsIn_setBounds hid _

theorem keeps_hits (count : Nat) (query : Query) (room : Nat) :
    Keeps (Filled · count) (hits query room) :=
  .look fun _ hix => hix.search query _

theorem keeps_frame (count : Nat) (s : Settings) (room : Nat) (tally : Tally) (number : Nat) :
    Keeps (Filled · count) (frame s room tally number) := by
  unfold frame
  refine (Keeps.forM fun id _ => keeps_move count id).bind fun _ => ?_
  refine (Keeps.sample _).bind fun subject => ?_
  refine .get_bind fun sim _ => ?_
  extract_lets half rest
  have hrest : ∀ small, Keeps (Filled · count) (rest small) := by
    intro small
    refine (Keeps.sample _).bind fun x => (Keeps.sample _).bind fun y => ?_
    refine (keeps_hits count _ room).bind fun large => ?_
    refine (Keeps.look fun _ hix => hix.allVertices).bind fun vertices => ?_
    exact .pure _
  split
  next => exact (keeps_hits count _ room).bind hrest
  next => exact (Keeps.pure _).bind hrest

end SpriteField.Workload
