import SpriteField.Proofs.Counter
import SpriteField.Proofs.Workload.Glyphs

/-!
# What the glyphs count

A region is placed in a free rectangle that was found or in one that the atlas has grown by, so the
placements are the hits and the growths together.  Every round ends with at most one upload, and the
first one with one, as a new texture shows nothing.
-/

namespace SpriteField

/-- At most `bound` regions were placed, and each counts as a hit of the free list or a growth. -/
def AtlasCounters.Placed (c : AtlasCounters) (bound : Nat) : Prop :=
  ∃ hits growths, hits + growths ≤ bound ∧ c.freeListHits = .upTo hits ∧
    c.growths = .upTo growths ∧ c.regionsPlaced = .upTo (hits + growths)

theorem AtlasCounters.Placed.mono {c : AtlasCounters} {bound bound' : Nat} (h : c.Placed bound)
    (hle : bound ≤ bound') : c.Placed bound' := by
  obtain ⟨hits, growths, hbound, hcounts⟩ := h
  exact ⟨hits, growths, hbound.trans hle, hcounts⟩

namespace Atlas

variable {atlas : Atlas} {shelves : List Shelf} {bound : Nat}

theorem Placed.counters_allocate {placed : Atlas} {id i width height stride : Nat}
    {pixels : Array Color} {b : Box}
    (hplaced : Placed atlas placed shelves width height pixels stride i b)
    (h : atlas.counters.Placed bound) :
    (allocate id i width height placed).counters.Placed (bound + 1) := by
  obtain ⟨hits, growths, hle, hhits, hgrowths, hregions⟩ := h
  obtain ⟨opened, image, hopens, rfl, -⟩ := hplaced.opens
  cases hopens with
  | hit =>
    refine ⟨hits + 1, growths, by omega, ?_, hgrowths, ?_⟩
    · change atlas.counters.freeListHits.increment 1 = _
      rw [hhits]
      exact Counter.increment_upTo _ 1
    · change atlas.counters.regionsPlaced.increment 1 = _
      rw [hregions, Nat.add_right_comm]
      exact Counter.increment_upTo _ 1
  | grown =>
    refine ⟨hits, growths + 1, by omega, hhits, ?_, ?_⟩
    · change atlas.counters.growths.increment 1 = _
      rw [hgrowths]
      exact Counter.increment_upTo _ 1
    · change atlas.counters.regionsPlaced.increment 1 = _
      rw [hregions]
      exact Counter.increment_upTo _ 1

/-- A call that sets a region places it or makes it empty. -/
theorem Packed.placed_setRegion (h : Packed atlas shelves) (hplaced : atlas.counters.Placed bound)
    (id width height : Nat) (pixels : Array Color) (stride : Nat) :
    EndsIn (fun _ => True) (setRegion id width height pixels stride) atlas fun _ atlas' =>
      (∃ shelves', Packed atlas' shelves') ∧ atlas'.counters.Placed (bound + 1) := by
  have houtcome := setRegion_outcome h id width height pixels stride
  have hpacked := h.stateAfter_setRegion id width height pixels stride
  generalize hrun : setRegion id width height pixels stride atlas = result at houtcome
  cases houtcome with
  | refused error => exact .of_error hrun trivial
  | full error hid => exact .of_error hrun trivial
  | emptied hempty hid =>
    rw [stateAfter_of_ok hrun] at hpacked
    exact .of_ok hrun ⟨⟨_, hpacked⟩, hplaced.mono (Nat.le_succ bound)⟩
  | placed hsource hroom hid =>
    rw [stateAfter_of_ok hrun] at hpacked
    refine .of_ok hrun ⟨⟨_, hpacked⟩, hroom.counters_allocate hplaced⟩

end Atlas

namespace Workload

open Simulation

/-- The atlas is packed with no more than `bound` placements, and the texture was uploaded so often.
Before its first upload it is stale. -/
structure Churned (t : TextureAtlas CountingTexture) (bound uploads : Nat) : Prop where
  ordered : Ordered t
  placed : t.atlas.counters.Placed bound
  uploads_eq : t.texture.uploads = uploads
  stale_of_new : uploads = 0 → t.stale = true

namespace Churned

variable {t : TextureAtlas CountingTexture} {bound uploads : Nat}

theorem mono (h : Churned t bound uploads) {bound' : Nat} (hle : bound ≤ bound') :
    Churned t bound' uploads :=
  ⟨h.ordered, h.placed.mono hle, h.uploads_eq, h.stale_of_new⟩

theorem endsIn_resetRegion (h : Churned t bound uploads) (id : Nat) :
    EndsIn (fun _ => True) (TextureAtlas.resetRegion id) t fun _ t' =>
      Churned t' bound uploads := by
  obtain ⟨shelves, hpacked⟩ := h.ordered
  rcases Atlas.resetRegion_cases id t.atlas with ⟨error, hrefused⟩ | hdone
  · exact .of_error (TextureAtlas.onAtlas_of_error hrefused) trivial
  · exact .of_ok (TextureAtlas.onAtlas_of_ok hdone)
      ⟨⟨shelves, hpacked.vacated id⟩, h.placed, h.uploads_eq, h.stale_of_new⟩

theorem endsIn_setRegion (h : Churned t bound uploads) (id width height stride : Nat)
    (pixels : Array Color) :
    EndsIn (fun _ => True) (TextureAtlas.setRegion id width height pixels stride) t fun _ t' =>
      Churned t' (bound + 1) uploads := by
  obtain ⟨shelves, hpacked⟩ := h.ordered
  have hset := hpacked.placed_setRegion h.placed id width height pixels stride
  unfold EndsIn at hset
  cases hresult : Atlas.setRegion id width height pixels stride t.atlas with
  | ok value atlas =>
    rw [hresult] at hset
    exact .of_ok (TextureAtlas.setRegion_of_ok hresult)
      ⟨hset.1, hset.2, h.uploads_eq, fun _ => rfl⟩
  | error error atlas => exact .of_error (TextureAtlas.setRegion_of_error hresult) trivial

/-- After a flush the texture has been uploaded, by this flush or by an earlier one. -/
theorem endsIn_flush (h : Churned t bound uploads) :
    EndsIn (fun _ => True) TextureAtlas.flush t fun _ t' =>
      ∃ uploads' ≤ uploads + 1, 0 < uploads' ∧ Churned t' bound uploads' := by
  cases hstale : t.stale with
  | false =>
    have hpos : 0 < uploads := by
      refine Nat.pos_of_ne_zero fun hzero => ?_
      cases hstale.symm.trans (h.stale_of_new hzero)
    exact .of_ok (TextureAtlas.flush_of_current hstale) ⟨uploads, Nat.le_succ uploads, hpos, h⟩
  | true =>
    refine .of_ok (TextureAtlas.flush_of_ok hstale (upload_image t)) ?_
    refine ⟨uploads + 1, le_rfl, Nat.succ_pos uploads, h.ordered, h.placed, ?_, ?_⟩
    · rw [← h.uploads_eq]
    · rintro ⟨⟩

end Churned

section Rounds

variable {sim : Simulation (TextureAtlas CountingTexture)} {bound uploads : Nat}

theorem Churned.endsIn_sample {α : Type} (h : Churned sim.state bound uploads)
    (next : Generator → α × Generator) :
    EndsIn (fun _ => True) (sample next) sim fun _ sim' => Churned sim'.state bound uploads :=
  .of_ok rfl h

theorem Churned.endsIn_packGlyph (h : Churned sim.state bound uploads) (round glyph : Nat) :
    EndsIn (fun _ => True) (packGlyph round glyph) sim fun _ sim' =>
      Churned sim'.state (bound + 1) uploads := by
  unfold packGlyph
  extract_lets rest
  have hrest : ∀ choice (sim : Simulation (TextureAtlas CountingTexture)),
      Churned sim.state bound uploads → EndsIn (fun _ => True) (rest choice) sim fun _ sim' =>
        Churned sim'.state (bound + 1) uploads := by
    intro choice sim h
    dsimp only [rest]
    split
    · exact .pure (h.mono (Nat.le_succ bound))
    · split
      · refine (endsIn_onState (h.endsIn_resetRegion glyph)).mono (fun _ _ => trivial) ?_
        intro _ sim' h'
        exact h'.mono (Nat.le_succ bound)
      · refine (h.endsIn_sample (·.below 28)).bind ?_
        intro width drawn hdrawn
        refine (hdrawn.endsIn_sample (·.below 24)).bind ?_
        intro height drawn' hdrawn'
        exact endsIn_onState (hdrawn'.endsIn_setRegion glyph (4 + width) (8 + height) 32 bitmap)
  split
  · exact hrest 0 sim h
  · exact (h.endsIn_sample (·.below 3)).bind hrest

/-- Every round places no more regions than there are glyphs and ends with one upload at most, and
the first one with one. -/
theorem endsIn_packGlyphs (s : Settings) {t : TextureAtlas CountingTexture} (h : Churned t 0 0)
    (generator : Generator) :
    EndsIn (fun _ => True) (packGlyphs s) ⟨t, generator⟩ fun _ sim =>
      ∃ uploads ≤ 4, 0 < uploads ∧ Churned sim.state (4 * s.glyphs) uploads := by
  have hrounds : EndsIn (fun _ => True) (packGlyphs s) ⟨t, generator⟩ fun _ sim =>
      ∃ uploads ≤ 4, (0 < 4 → 0 < uploads) ∧ Churned sim.state (4 * s.glyphs) uploads := by
    refine .forM_range (motive := fun round (sim : Simulation (TextureAtlas CountingTexture)) =>
      ∃ uploads ≤ round, (0 < round → 0 < uploads) ∧
        Churned sim.state (round * s.glyphs) uploads) ?_ ?_
    · rintro round - sim ⟨uploads, hle, -, hchurned⟩
      have hglyphs : EndsIn (fun _ => True) ((List.range s.glyphs).forM (packGlyph round)) sim
          fun _ sim' => Churned sim'.state (round * s.glyphs + s.glyphs) uploads := by
        refine .forM_range (motive := fun glyph
          (sim : Simulation (TextureAtlas CountingTexture)) =>
            Churned sim.state (round * s.glyphs + glyph) uploads) ?_ hchurned
        intro glyph _ sim h
        exact h.endsIn_packGlyph round glyph
      refine hglyphs.bind ?_
      intro _ packed hpacked
      refine (endsIn_onState hpacked.endsIn_flush).bind ?_
      rintro _ flushed ⟨uploads', hle', hpos, hflushed⟩
      rw [← Nat.succ_mul] at hflushed
      exact .pure ⟨uploads', by omega, fun _ => hpos, hflushed⟩
    · rw [Nat.zero_mul]
      exact ⟨0, le_rfl, fun hzero => hzero, h⟩
  refine hrounds.mono (fun _ _ => trivial) ?_
  rintro _ sim ⟨uploads, hle, hpos, hchurned⟩
  exact ⟨uploads, hle, hpos (by decide), hchurned⟩

end Rounds

end Workload

end SpriteField
