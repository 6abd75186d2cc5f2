import SpriteField.Proofs.EntityIndex.Ledger
import SpriteField.Proofs.Generator.Period
import SpriteField.Proofs.Workload.Field
import SpriteField.Proofs.Workload.Movers

/-!
# What a field counts

Every entity that is set or moved is one update, every frame has two searches, and what they find
goes into the tally of the run.
-/

namespace SpriteField

namespace Workload

open Simulation EntityIndex

/-- The field is filled up to `count`, and its index has counted so many updates, searches and
entities found. -/
structure Counted (ix : EntityIndex) (count updates searches found : Nat) : Prop where
  filled : Filled ix count
  books : ∃ l, Books ix l ∧ l.updates = updates ∧ l.searches = searches ∧ l.found = found

namespace Counted

variable {ix : EntityIndex} {count updates searches found : Nat}

/-- A call that gives an entity a collider counts as an update if it is carried out. -/
theorem update (h : Counted ix count updates searches found) (call : Call) {collider : Collider}
    (hcollider : call.collider? ix = some collider) {ix' : EntityIndex}
    (hdone : call.program ix = .ok ⟨⟩ ix') {count' : Nat} (hfilled : Filled ix' count') :
    Counted ix' count' (updates + 1) searches found := by
  obtain ⟨l, hbooks, rfl, rfl, rfl⟩ := h.books
  have hrefusal : call.refusal? = none := by
    cases hrefusal : call.refusal? with
    | none => rfl
    | some error =>
      rw [hbooks.consistent.refused hrefusal] at hdone
      cases hdone
  have hreset : call ≠ .resetCounters := by
    rintro rfl
    cases hcollider
  have hafter := hbooks.after hreset
  rw [after_eq_stateAfter, stateAfter_of_ok hdone,
    hbooks.consistent.entry_of_some hrefusal hcollider] at hafter
  exact ⟨hfilled, _, hafter, rfl, rfl, rfl⟩

theorem endsIn_set (h : Counted ix count updates searches found) {entity : Entity}
    (hid : entity.id = count) (hsprite : spriteFault? entity.sprite = none) :
    EndsIn Expected (EntityIndex.set entity) ix fun _ ix' =>
      Counted ix' (count + 1) (updates + 1) searches found := by
  refine (h.filled.endsIn_set hid hsprite).traced.mono (fun _ herror => herror) ?_
  rintro ⟨⟩ ix' ⟨hfilled, hdone⟩
  exact h.update (.set entity) rfl hdone hfilled

theorem endsIn_setBounds (h : Counted ix count updates searches found) {id : Nat}
    (hid : id < count) (bounds : Rect) :
    EndsIn Expected (EntityIndex.setBounds id bounds) ix fun _ ix' =>
      Counted ix' count (updates + 1) searches found := by
  refine (h.filled.endsIn_setBounds hid bounds).traced.mono (fun _ herror => herror) ?_
  rintro ⟨⟩ ix' ⟨hfilled, hdone⟩
  exact h.update (.setBounds id bounds) rfl hdone hfilled

/-- A search with room for an id counts, and what it answers is what it has found. -/
theorem search (h : Counted ix count updates searches found) (query : Query)
    {buffer : Array Nat} (hpos : 0 < buffer.size) :
    Counted (ix.search query buffer).2 count updates (searches + 1)
      (found + (ix.search query buffer).1.1) := by
  obtain ⟨l, hbooks, rfl, rfl, rfl⟩ := h.books
  have hfilled := h.filled.search query buffer
  rw [search_of_pos query hpos] at hfilled ⊢
  exact ⟨hfilled, _, hbooks.search query (some buffer.size), rfl, rfl, rfl⟩

theorem allVertices (h : Counted ix count updates searches found) :
    Counted ix.allVertices.2 count updates searches found := by
  obtain ⟨l, hbooks, hcounts⟩ := h.books
  have hreset : Call.allVertices ≠ .resetCounters := by rintro ⟨⟩
  have hafter : Books ix.allVertices.2 (l.plus {}) := hbooks.after hreset
  exact ⟨h.filled.allVertices, _, hafter, hcounts⟩

end Counted

/-! ## Filling the field -/

theorem endsIn_populate_counted (s : Settings) {ix : EntityIndex} (h : Counted ix 0 0 0 0)
    (generator : Generator) :
    EndsIn Expected (populate s) ⟨ix, generator⟩ fun _ sim =>
      Counted sim.state s.total s.total 0 0 :=
  endsIn_populate s (motive := fun count ix => Counted ix count count 0 0)
    (fun _ _ _ hcounted hid hsprite => hcounted.endsIn_set hid hsprite) h generator

/-! ## Frames -/

section Frame

variable {count updates searches found : Nat}

theorem Counted.endsIn_move {sim : Simulation EntityIndex}
    (h : Counted sim.state count updates searches found) {id : Nat} (hid : id < count) :
    EndsIn Expected (move id) sim fun _ sim' =>
      Counted sim'.state count (updates + 1) searches found := by
  obtain ⟨entity, hget⟩ := h.filled.exists_get? hid
  unfold move
  refine .get_bind ?_
  dsimp only
  rw [hget]
  have hstep : Keeps (Counted · count updates searches found) sampleStep := keeps_sampleStep
  refine (hstep sim h).bind ?_
  intro dx sim' h'
  refine (hstep sim' h').bind ?_
  intro dy sim'' h''
  exact endsIn_onState (h''.endsIn_setBounds hid _)

/-- A search of a run finds no more ids than it has room for, and counts them all. -/
theorem Counted.endsIn_hits {sim : Simulation EntityIndex}
    (h : Counted sim.state count updates searches found) (query : Query) {room : Nat}
    (hroom : 0 < room) :
    EndsIn Expected (hits query room) sim fun hit sim' =>
      Counted sim'.state count updates (searches + 1) (found + hit) ∧ hit ≤ room := by
  have hsize : (Array.replicate room 0).size = room := Array.size_replicate
  refine .of_ok rfl ⟨h.search query (by rw [hsize]; exact hroom), ?_⟩
  have hcapped := (capped_search sim.state query (Array.replicate room 0)).count
  rw [hsize] at hcapped
  exact hcapped.le.trans (Nat.min_le_right _ _)

/-- A frame makes one update for every entity that moves, and two searches. -/
theorem Counted.endsIn_frame {sim : Simulation EntityIndex} (s : Settings)
    (h : Counted sim.state s.total updates searches found) (hpos : 0 < s.total) (tally : Tally)
    (number : Nat) :
    EndsIn Expected (frame s s.total tally number) sim fun tally' sim' =>
      ∃ small ≤ s.total, ∃ large ≤ s.total,
        tally'.small = tally.small + small ∧ tally'.large = tally.large + large ∧
        Counted sim'.state s.total (updates + (movers s number).length) (searches + 2)
          (found + small + large) := by
  unfold frame
  have hmoves : EndsIn Expected ((movers s number).forM move) sim fun _ sim' =>
      Counted sim'.state s.total (updates + (movers s number).length) searches found := by
    refine .forM_counted (motive := fun updates (sim : Simulation EntityIndex) =>
      Counted sim.state s.total updates searches found) ?_ h
    intro id hid updates sim' h'
    exact h'.endsIn_move (mem_movers.mp hid).1
  refine hmoves.bind ?_
  intro _ moved hmoved
  -- The subject is drawn from the entities, so its neighbourhood is searched in every frame.
  have hsubject : EndsIn Expected (sample (·.below s.total)) moved fun subject sim' =>
      Counted sim'.state s.total (updates + (movers s number).length) searches found ∧
        subject < s.total := .of_ok rfl ⟨hmoved, moved.generator.below_lt s.total hpos⟩
  refine hsubject.bind ?_
  rintro subject drawn ⟨hdrawn, hlt⟩
  obtain ⟨entity, hget⟩ := hdrawn.filled.exists_get? hlt
  refine .get_bind ?_
  extract_lets half rest
  rw [hget]
  refine (hdrawn.endsIn_hits _ hpos).bind ?_
  rintro small searched ⟨hsearched, hsmall⟩
  have hdraw : Keeps (Counted · s.total (updates + (movers s number).length) (searches + 1)
      (found + small)) (sample (·.range .zero half)) := .sample _
  refine (hdraw searched hsearched).bind ?_
  intro x sim₁ h₁
  refine (hdraw sim₁ h₁).bind ?_
  intro y sim₂ h₂
  refine (h₂.endsIn_hits _ hpos).bind ?_
  rintro large sim₃ ⟨h₃, hlarge⟩
  have hdrawing : Keeps (Counted · s.total (updates + (movers s number).length) (searches + 2)
      (found + small + large)) (look fun ix : EntityIndex =>
        (ix.allVertices.1.size, ix.allVertices.2)) := .look fun _ hix => hix.allVertices
  refine (hdrawing sim₃ h₃).bind ?_
  intro vertices sim₄ h₄
  exact EndsIn.pure ⟨small, hsmall, large, hlarge, rfl, rfl, h₄⟩

/-- What a field has counted, and what its tally says, after so many frames. -/
structure CountedFrames (s : Settings) (frames : Nat) (tally : Tally) (ix : EntityIndex) : Prop where
  counted : Counted ix s.total
    (s.total + ∑ frame ∈ Finset.range frames, (movers s frame).length) (2 * frames)
    (tally.small + tally.large)
  small_le : tally.small ≤ frames * s.total
  large_le : tally.large ≤ frames * s.total

theorem endsIn_frames (s : Settings) (hpos : 0 < s.total) {sim : Simulation EntityIndex}
    (h : Counted sim.state s.total s.total 0 0) :
    EndsIn Expected ((List.range s.frames).foldlM (frame s s.total) default) sim
      fun tally sim' => CountedFrames s s.frames tally sim'.state := by
  refine .foldlM_range (motive := fun frames tally (sim : Simulation EntityIndex) =>
    CountedFrames s frames tally sim.state) ?_ ⟨h, Nat.zero_le _, Nat.zero_le _⟩
  intro number _ tally sim hframes
  refine (hframes.counted.endsIn_frame s hpos tally number).mono (fun _ herror => herror) ?_
  rintro tally' sim' ⟨small, hsmall, large, hlarge, hsmall', hlarge', hcounted⟩
  have hsmallLe := hframes.small_le
  have hlargeLe := hframes.large_le
  refine ⟨?_, ?_, ?_⟩
  · rw [Finset.sum_range_succ, ← Nat.add_assoc, hsmall', hlarge']
    have hfound : tally.small + small + (tally.large + large) =
        tally.small + tally.large + small + large := by omega
    rw [hfound]
    exact hcounted
  · rw [hsmall', Nat.succ_mul]
    omega
  · rw [hlarge', Nat.succ_mul]
    omega

end Frame

end Workload

end SpriteField
