import SpriteField.Proofs.Atlas.Coverage
import SpriteField.Proofs.Generator.Period
import SpriteField.Proofs.TextureAtlas
import SpriteField.Proofs.Workload.Simulation
import SpriteField.Workload.Glyphs

/-!
# The glyphs of a run

Every glyph is small enough for the bitmap that all are cut from, and its number is that of a
region, so a full atlas is the only reason to refuse one.  Whatever is packed and given up, the
regions lie side by side.
-/

namespace SpriteField

namespace Workload

open Simulation

/-- The atlas behind the texture is packed. -/
def Ordered (t : TextureAtlas CountingTexture) : Prop :=
  ∃ shelves, Atlas.Packed t.atlas shelves

/-! ## Glyphs -/

theorem source_bitmap {width height : Nat} (hwidth : width < 28) (hheight : height < 24) :
    Atlas.Source (4 + width) (8 + height) bitmap 32 := by
  have hsize : bitmap.size = 1024 := by simp [bitmap]
  constructor <;> omega

/-- An image always has as many pixels as it says, so its upload is never refused. -/
theorem upload_image (t : TextureAtlas CountingTexture) :
    TextureBackend.upload t.atlas.image.width t.atlas.image.height t.atlas.image.pixels t.texture =
      .ok ⟨⟩ ⟨t.texture.uploads + 1⟩ := by
  change (if _ then _ else _ : EStateM EngineError CountingTexture Unit) _ = _
  rw [if_pos t.atlas.image.size_pixels]
  rfl

namespace Ordered

variable {t : TextureAtlas CountingTexture} {glyph : Nat}

theorem endsIn_resetRegion (h : Ordered t) (hglyph : glyph ≤ Atlas.maxRegionId) :
    EndsIn Expected (TextureAtlas.resetRegion glyph) t fun _ => Ordered := by
  obtain ⟨shelves, hpacked⟩ := h
  exact .of_ok (TextureAtlas.onAtlas_of_ok (Atlas.resetRegion_ok hglyph t.atlas))
    ⟨shelves, hpacked.vacated glyph⟩

theorem endsIn_setRegion (h : Ordered t) (hglyph : glyph ≤ Atlas.maxRegionId)
    {width height stride : Nat} {pixels : Array Color}
    (hsource : Atlas.Source width height pixels stride) :
    EndsIn Expected (TextureAtlas.setRegion glyph width height pixels stride) t
      fun _ => Ordered := by
  obtain ⟨shelves, hpacked⟩ := h
  rcases Atlas.setRegion_of_source hpacked hglyph hsource with
    ⟨i, placed, b, hplaced, hdone⟩ | ⟨-, hfull, hrefused⟩
  · have hpacked' := hpacked.stateAfter_setRegion glyph width height pixels stride
    rw [stateAfter_of_ok hdone] at hpacked'
    exact .of_ok (TextureAtlas.setRegion_of_ok hdone) ⟨_, hpacked'⟩
  · exact .of_error (TextureAtlas.setRegion_of_error hrefused) (.atlasFull hfull)

theorem endsIn_flush (h : Ordered t) :
    EndsIn Expected TextureAtlas.flush t fun _ => Ordered := by
  cases hstale : t.stale with
  | false => exact .of_ok (TextureAtlas.flush_of_current hstale) h
  | true => exact .of_ok (TextureAtlas.flush_of_ok hstale (upload_image t)) h

end Ordered

theorem keeps_packGlyph (round : Nat) {glyph : Nat} (hglyph : glyph ≤ Atlas.maxRegionId) :
    Keeps Ordered (packGlyph round glyph) := by
  unfold packGlyph
  extract_lets rest
  have hrest : ∀ choice, Keeps Ordered (rest choice) := by
    intro choice
    dsimp only [rest]
    split
    · exact .pure _
    · split
      · exact .onState fun _ ht => ht.endsIn_resetRegion hglyph
      · refine .sample_bind fun g => .sample_bind fun g' => ?_
        have hsource := source_bitmap (g.below_lt 28 (by decide)) (g'.below_lt 24 (by decide))
        exact .onState fun _ ht => ht.endsIn_setRegion hglyph hsource
  split
  · exact (Keeps.pure _).bind hrest
  · exact (Keeps.sample _).bind hrest

theorem keeps_packGlyphs {s : Settings} (hglyphs : s.glyphs ≤ 2 ^ 31) :
    Keeps Ordered (packGlyphs s) := by
  refine .forM fun round _ => ?_
  refine (Keeps.forM fun glyph hglyph => keeps_packGlyph round ?_).bind fun _ => ?_
  · have hlt := List.mem_range.mp hglyph
    rw [Atlas.maxRegionId]
    omega
  · refine (Keeps.onState fun _ ht => ht.endsIn_flush).bind fun _ => ?_
    exact .pure _

/-! ## All rounds -/

theorem firstOverlap?_eq_none {rects : List Rect}
    (h : rects.Pairwise fun a b => a.collides b = false) : firstOverlap? rects = none := by
  induction h with
  | nil => rfl
  | @cons r rest hr _ ih =>
    have hnone : rest.any r.collides = false := by
      rw [List.any_eq_false]
      intro other hother
      rw [hr other hother]
      exact Bool.false_ne_true
    rw [firstOverlap?, hnone]
    exact ih

theorem Ordered.firstOverlap?_eq_none {t : TextureAtlas CountingTexture} (h : Ordered t) :
    firstOverlap? (t.atlas.liveRegions.map (·.2)) = none := by
  obtain ⟨shelves, hpacked⟩ := h
  exact Workload.firstOverlap?_eq_none (List.pairwise_append.mp hpacked.pairwise_rects).1

end Workload
end SpriteField
