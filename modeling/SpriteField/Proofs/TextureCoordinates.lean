import SpriteField.Proofs.Binary32.Quotient
import SpriteField.Proofs.TextureAtlas

/-!
# Regions as parts of the texture

The place of a region on the texture is given by its corners divided by the size of the image, and
each quotient is rounded.  Different edges of the image's pixels have different quotients in the
same order.  A region therefore keeps its extent on the texture, and two regions still do not
overlap there.
-/

namespace SpriteField

namespace Box

/-- The box as a part of an image of the given size, whose sides have length one. -/
def uv (b : Box) (width height : Nat) : Rect :=
  ⟨.ofRatio false b.x1 width, .ofRatio false b.y1 height, .ofRatio false b.x2 width,
    .ofRatio false b.y2 height⟩

variable {b b' : Box} {width height : Nat} (hwidth : width ≤ 2 ^ 24) (hheight : height ≤ 2 ^ 24)
  (hpos : 0 < width ∧ 0 < height) (h : b.Within width height) (h' : b'.Within width height)
include hwidth hheight hpos h

theorem uv_eq_div : b.uv width height =
    ⟨.ofNat b.x1 / .ofNat width, .ofNat b.y1 / .ofNat height, .ofNat b.x2 / .ofNat width,
      .ofNat b.y2 / .ofNat height⟩ := by
  have hlarge := h.mono hwidth hheight
  rw [Binary32.ofNat_div_ofNat (x1_le hlarge) hwidth hpos.1,
    Binary32.ofNat_div_ofNat (y1_le hlarge) hheight hpos.2,
    Binary32.ofNat_div_ofNat hlarge.right_le hwidth hpos.1,
    Binary32.ofNat_div_ofNat hlarge.bottom_le hheight hpos.2]
  rfl

theorem extent_uv :
    ((b.uv width height).x1 < (b.uv width height).x2 ∧
      (b.uv width height).y1 < (b.uv width height).y2) ↔ b.rect.hasArea = true := by
  simp only [uv, hasArea_rect (h.mono hwidth hheight),
    Binary32.ofRatio_lt_ofRatio_iff h.right_le hpos.1 hwidth,
    Binary32.ofRatio_lt_ofRatio_iff h.bottom_le hpos.2 hheight]

include h' in
/-- Comparing the edges of two boxes gives the same before and after the division. -/
theorem collides_uv :
    (b.uv width height).collides (b'.uv width height) = b.rect.collides b'.rect := by
  have hlarge := h.mono hwidth hheight
  have hlarge' := h'.mono hwidth hheight
  simp only [Rect.collides, Rect.hasArea, uv, rect,
    Binary32.ofRatio_lt_ofRatio_iff h.right_le hpos.1 hwidth,
    Binary32.ofRatio_lt_ofRatio_iff h'.right_le hpos.1 hwidth,
    Binary32.ofRatio_lt_ofRatio_iff h.bottom_le hpos.2 hheight,
    Binary32.ofRatio_lt_ofRatio_iff h'.bottom_le hpos.2 hheight,
    Binary32.ofNat_lt_ofNat (x1_le hlarge) hlarge.right_le,
    Binary32.ofNat_lt_ofNat (x1_le hlarge) hlarge'.right_le,
    Binary32.ofNat_lt_ofNat (x1_le hlarge') hlarge.right_le,
    Binary32.ofNat_lt_ofNat (x1_le hlarge') hlarge'.right_le,
    Binary32.ofNat_lt_ofNat (y1_le hlarge) hlarge.bottom_le,
    Binary32.ofNat_lt_ofNat (y1_le hlarge) hlarge'.bottom_le,
    Binary32.ofNat_lt_ofNat (y1_le hlarge') hlarge.bottom_le,
    Binary32.ofNat_lt_ofNat (y1_le hlarge') hlarge'.bottom_le]

end Box

/-- All coordinates lie between zero and one, and the corners are in order. -/
structure Rect.Normalized (u : Rect) : Prop where
  unit : ∀ c ∈ [u.x1, u.y1, u.x2, u.y2], Binary32.zero ≤ c ∧ c ≤ Binary32.one
  left_le : u.x1 ≤ u.x2
  top_le : u.y1 ≤ u.y2

theorem Box.normalized_uv {b : Box} {width height : Nat} (hpos : 0 < width ∧ 0 < height)
    (h : b.Within width height) : (b.uv width height).Normalized := by
  have hunit : ∀ {m den : Nat}, 0 < den → m ≤ den →
      Binary32.zero ≤ .ofRatio false m den ∧ .ofRatio false m den ≤ Binary32.one :=
    fun hden hle => ⟨Binary32.zero_le_ofRatio _ hden, Binary32.ofRatio_le_one hden hle⟩
  have hright := h.right_le
  have hbottom := h.bottom_le
  constructor
  · simp only [uv, List.forall_mem_cons, List.not_mem_nil, false_imp_iff, implies_true, and_true]
    exact ⟨hunit hpos.1 (h.left_le.trans hright), hunit hpos.2 (h.top_le.trans hbottom),
      hunit hpos.1 hright, hunit hpos.2 hbottom⟩
  · exact Binary32.ofRatio_le_ofRatio hpos.1 h.left_le
  · exact Binary32.ofRatio_le_ofRatio hpos.2 h.top_le

namespace TextureAtlas

variable {τ : Type}

/-- Every region that was touched has a place on the texture, and no two that hold pixels overlap
there. -/
structure MapsRegions (t : TextureAtlas τ) : Prop where
  touched : ∀ id r, t.atlas.region? id = some r → ∃ u, t.regionUV? id = some u ∧
    u.Normalized ∧ ((u.x1 < u.x2 ∧ u.y1 < u.y2) ↔ r.hasArea = true)
  apart : ∀ id id' r r' u u', id ≠ id' →
    t.atlas.region? id = some r → r.hasArea = true → t.regionUV? id = some u →
    t.atlas.region? id' = some r' → r'.hasArea = true → t.regionUV? id' = some u' →
    u.collides u' = false

section Packed

variable {t : TextureAtlas τ} {shelves : List Shelf} (h : t.atlas.Packed shelves)
include h

theorem size_pos : 0 < t.atlas.image.width ∧ 0 < t.atlas.image.height := by
  have hrows := h.stacked.top_le_bottom
  exact ⟨h.width_pos, by omega⟩

theorem exists_regionUV {id : Nat} {r : Rect} (hr : t.atlas.region? id = some r) :
    ∃ b : Box, r = b.rect ∧ b.Within t.atlas.image.width t.atlas.image.height ∧
      t.regionUV? id = some (b.uv t.atlas.image.width t.atlas.image.height) := by
  obtain ⟨b, rfl, hin⟩ := h.boxed_region hr
  refine ⟨b, rfl, hin, ?_⟩
  rw [regionUV?, hr, Box.uv_eq_div h.width_le h.height_le (size_pos h) hin]
  rfl

theorem mapsRegions : MapsRegions t := by
  constructor
  · intro id r hr
    obtain ⟨b, rfl, hin, huv⟩ := exists_regionUV h hr
    exact ⟨_, huv, Box.normalized_uv (size_pos h) hin,
      Box.extent_uv h.width_le h.height_le (size_pos h) hin⟩
  · intro id id' r r' u u' hne hr harea hu hr' harea' hu'
    have hcollides := h.collides_regions hne hr hr' harea harea'
    obtain ⟨b, rfl, hin, huv⟩ := exists_regionUV h hr
    obtain ⟨b', rfl, hin', huv'⟩ := exists_regionUV h hr'
    rw [huv] at hu
    rw [huv'] at hu'
    cases hu
    cases hu'
    rw [Box.collides_uv h.width_le h.height_le (size_pos h) hin hin', hcollides]

end Packed

/-- In every state that calls reach over any texture, the regions lie within the unit square, have
extent there if they hold pixels, and do not overlap. -/
theorem run_mapsRegions [TextureBackend τ] {texture : τ} {limits : AtlasLimits}
    {start : TextureAtlas τ} (hnew : new texture limits = .ok start) (calls : List Call) :
    MapsRegions (start.run calls) := by
  have hpacked := Atlas.packed_run (new_eq_ok hnew).1 (calls.filterMap (·.change?))
  rw [← atlas_run] at hpacked
  exact mapsRegions hpacked

/-- Three regions in an image of width 3, one of them empty, whose edges have no exact quotient. -/
theorem mapsRegions_thirds :
    let start : TextureAtlas RecordingTexture := ofAtlas .new (Atlas.within .standard)
    let calls : List Call := [.setRegion 0 3 2 (Array.replicate 6 .white) 3, .resetRegion 0,
      .setRegion 0 1 1 #[.white] 1, .flush, .setRegion 2 1 2 #[.white, .white] 1]
    new .new .standard = .ok start ∧ MapsRegions (start.run calls) ∧
      (start.run calls).atlas.image.width = 3 ∧
      ((start.run calls).regionUV? 0).map (·.x2) = some (.ofRatio false 1 3) := by
  intro start calls
  have hnew : new RecordingTexture.new .standard = .ok start := rfl
  exact ⟨hnew, run_mapsRegions hnew calls, by decide +kernel, by decide +kernel⟩

end TextureAtlas
end SpriteField
