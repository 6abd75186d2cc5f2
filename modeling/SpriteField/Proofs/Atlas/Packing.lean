import SpriteField.Proofs.Atlas.Tiling
import SpriteField.Proofs.Refusal

/-!
# Packing a region

Each part of a placement keeps the shelves tiled: making records, releasing a region, growing, and
cutting the place of the new region out of a free rectangle.  Only growing adds a shelf.
-/

namespace SpriteField.Atlas

variable {atlas opened : Atlas} {shelves : List Shelf} {id i width height : Nat}

theorem Packed.congr {atlas' : Atlas} (h : Packed atlas shelves)
    (hlimits : atlas'.limits = atlas.limits) (hwidth : atlas'.image.width = atlas.image.width)
    (hheight : atlas'.image.height = atlas.image.height) (hregions : atlas'.regions = atlas.regions)
    (hfree : atlas'.free = atlas.free) : Packed atlas' shelves := by
  constructor
  · rw [hlimits]
    exact h.limits
  · rw [hwidth]
    exact h.width_pos
  · rw [hwidth]
    exact h.width_le
  · rw [hheight]
    exact h.height_le
  · rw [hheight]
    exact h.stacked
  · rw [hregions, hwidth, hheight]
    exact h.regions
  · rw [hfree, hwidth, hheight]
    exact h.free
  · rw [hfree]
    exact h.freeArea
  · rw [hregions, hfree]
    exact h.tiles

theorem Packed.boxed_region (h : Packed atlas shelves) {r : Rect}
    (hr : atlas.regions[id]? = some r) :
    ∃ b : Box, r = b.rect ∧ b.Within atlas.image.width atlas.image.height :=
  h.regions r (Array.mem_of_getElem? hr)

/-! ## Records -/

def extend (atlas : Atlas) (id : Nat) : Atlas :=
  { atlas with
    regions := atlas.regions ++ Array.replicate (id + 1 - atlas.regions.size) Rect.zero }

theorem ensureRegion_ok (h : id ≤ maxRegionId) (atlas : Atlas) :
    ensureRegion id atlas = .ok ⟨⟩ (atlas.extend id) := by
  rw [ensureRegion, if_neg (by omega)]
  rfl

theorem ensureRegion_error (h : maxRegionId < id) (atlas : Atlas) :
    ensureRegion id atlas = .error (.regionOutOfRange id) atlas := by
  rw [ensureRegion, if_pos h]
  rfl

theorem getElem?_extend (atlas : Atlas) (id other : Nat) :
    (atlas.extend id).regions[other]? =
      if other < atlas.regions.size then atlas.regions[other]?
      else if other ≤ id then some .zero else none := by
  rw [extend, Array.getElem?_append, Array.getElem?_replicate]
  split
  · rfl
  · by_cases hle : other ≤ id
    · rw [if_pos (by omega), if_pos hle]
    · rw [if_neg (by omega), if_neg hle]

theorem lt_size_extend (atlas : Atlas) (id : Nat) : id < (atlas.extend id).regions.size := by
  simp [extend]
  omega

theorem Packed.extend (h : Packed atlas shelves) (id : Nat) : Packed (atlas.extend id) shelves := by
  have hzero : ∀ ci cj, Rect.zero.hasCell ci cj = false := by
    intro ci cj
    exact hasCell_of_boxed (boxed_zero 0 0) (by decide) (by decide) (by decide) ci cj
  constructor
  · exact h.limits
  · exact h.width_pos
  · exact h.width_le
  · exact h.height_le
  · exact h.stacked
  · intro r hr
    rcases Array.mem_append.mp hr with hr | hr
    · exact h.regions r hr
    · rw [Array.eq_of_mem_replicate hr]
      exact boxed_zero _ _
  · exact h.free
  · exact h.freeArea
  · intro ci cj
    rw [← h.tiles ci cj]
    change Array.countP _ (atlas.regions ++ _) + _ = _
    rw [Array.countP_append, Array.countP_replicate, hzero]
    rfl

/-! ## Releasing -/

theorem regionAt_eq {r : Rect} (hr : atlas.regions[id]? = some r) : atlas.regionAt id = r := by
  rw [regionAt, Array.getD_eq_getD_getElem?, hr]
  rfl

theorem release_eq {r : Rect} (hr : atlas.regions[id]? = some r) :
    release id atlas = { atlas with
      free := pushFree atlas.free r
      regions := atlas.regions.setIfInBounds id r.collapsed } := by
  rw [release, regionAt_eq hr]
  rfl

theorem getElem?_release {r : Rect} (hr : atlas.regions[id]? = some r) (other : Nat) :
    (release id atlas).regions[other]? =
      if other = id then some r.collapsed else atlas.regions[other]? := by
  have hlt : id < atlas.regions.size := (Array.getElem?_eq_some_iff.mp hr).1
  rw [release_eq hr, Array.getElem?_setIfInBounds]
  by_cases heq : other = id
  · rw [if_pos heq.symm, if_pos heq, if_pos (heq ▸ hlt)]
  · rw [if_neg (Ne.symm heq), if_neg heq]

theorem Packed.release (h : Packed atlas shelves) {r : Rect} (hr : atlas.regions[id]? = some r) :
    Packed (release id atlas) shelves := by
  have hboxed := h.boxed_region hr
  have hcollapsed : ∀ ci cj, r.collapsed.hasCell ci cj = false :=
    hasCell_of_boxed (boxed_collapsed hboxed) h.width_le h.height_le
      (hasArea_collapsed hboxed h.width_le h.height_le)
  rw [release_eq hr]
  constructor
  · exact h.limits
  · exact h.width_pos
  · exact h.width_le
  · exact h.height_le
  · exact h.stacked
  · intro r' hr'
    rcases Array.mem_or_eq_of_mem_setIfInBounds hr' with hr' | rfl
    · exact h.regions r' hr'
    · exact boxed_collapsed hboxed
  · intro r' hr'
    rcases mem_pushFree.mp hr' with hr' | ⟨rfl, -⟩
    · exact h.free r' hr'
    · exact hboxed
  · intro r' hr'
    rcases mem_pushFree.mp hr' with hr' | ⟨-, harea⟩
    · exact h.freeArea r' hr'
    · exact harea
  · intro ci cj
    have hset := countP_setIfInBounds atlas.regions r.collapsed (·.hasCell ci cj) hr
    rw [hcollapsed ci cj, Bool.toNat_false] at hset
    obtain ⟨b, rfl, hin⟩ := hboxed
    have hpush : (pushFree atlas.free b.rect).countP (·.hasCell ci cj) = _ :=
      countP_pushFree (hin.mono h.width_le h.height_le) ci cj
    rw [← h.tiles ci cj]
    dsimp only
    omega

/-- A release is taken back by returning the rectangle to its record. -/
theorem unrelease_release {r : Rect} (hr : atlas.regions[id]? = some r) :
    unrelease id r atlas.free.size (Atlas.release id atlas) = atlas := by
  obtain ⟨hlt, hget⟩ := Array.getElem?_eq_some_iff.mp hr
  have hregions : (atlas.regions.setIfInBounds id r.collapsed).setIfInBounds id r =
      atlas.regions := by
    apply Array.ext_getElem?
    intro other
    rw [Array.getElem?_setIfInBounds, Array.getElem?_setIfInBounds]
    by_cases heq : id = other
    · subst heq
      simp [hlt, hget]
    · simp [heq]
  rw [release_eq hr, unrelease]
  dsimp only [pushFree]
  rw [hregions]
  cases r.hasArea with
  | false => rfl
  | true =>
    have herase : (atlas.free.push r).eraseIdxIfInBounds atlas.free.size = atlas.free := by
      apply Array.toList_inj.mp
      rw [Array.eraseIdxIfInBounds, dif_pos (by simp), Array.toList_eraseIdx, Array.toList_push,
        List.eraseIdx_append_of_length_le (by simp)]
      simp
    simp only [if_true, herase]

/-! ## Growing -/

theorem hasCell_shelf {s : Shelf} (hwidth : s.width ≤ 2 ^ 24) (hrows : s.top ≤ s.bottom)
    (hbottom : s.bottom ≤ 2 ^ 24) (ci cj : Int) : s.box.rect.hasCell ci cj = s.hasCell ci cj := by
  have hin : s.box.Within (2 ^ 24) (2 ^ 24) := ⟨Nat.zero_le _, hwidth, hrows, hbottom⟩
  rw [Bool.eq_iff_iff, Box.hasCell_rect hin]
  simp only [Shelf.hasCell, Shelf.box, Bool.and_eq_true, decide_eq_true_eq]
  omega

def grown (atlas : Atlas) (image : Image) : Atlas :=
  { atlas with
    image
    free := atlas.free.push
      ⟨.zero, .ofNat atlas.image.height, .ofNat image.width, .ofNat image.height⟩
    counters.growths := atlas.counters.growths.increment 1 }

theorem Packed.grown (h : Packed atlas shelves) {image : Image}
    (hwidth : atlas.image.width ≤ image.width) (hheight : atlas.image.height < image.height)
    (hmaxWidth : image.width ≤ 2 ^ 24) (hmaxHeight : image.height ≤ 2 ^ 24) :
    Packed (grown atlas image)
      (shelves ++ [⟨image.width, atlas.image.height, image.height⟩]) := by
  set shelf : Shelf := ⟨image.width, atlas.image.height, image.height⟩ with hshelf
  have hin : shelf.box.Within image.width image.height :=
    ⟨Nat.zero_le _, le_rfl, hheight.le, le_rfl⟩
  have hpush : (Atlas.grown atlas image).free = atlas.free.push shelf.box.rect := rfl
  have hpos := h.width_pos
  constructor
  · exact h.limits
  · exact hpos.trans_le hwidth
  · exact hmaxWidth
  · exact hmaxHeight
  · exact h.stacked.concat image.width hheight
  · exact h.regions.mono hwidth hheight.le
  · intro r hr
    rw [hpush] at hr
    rcases Array.mem_push.mp hr with hr | rfl
    · exact h.free.mono hwidth hheight.le r hr
    · exact ⟨shelf.box, rfl, hin⟩
  · intro r hr
    rw [hpush] at hr
    rcases Array.mem_push.mp hr with hr | rfl
    · exact h.freeArea r hr
    · exact (Box.hasArea_rect (hin.mono hmaxWidth hmaxHeight)).mpr
        ⟨hpos.trans_le hwidth, hheight⟩
  · intro ci cj
    have htiles := h.tiles ci cj
    have hcell := hasCell_shelf (s := shelf) hmaxWidth hheight.le hmaxHeight ci cj
    rw [hpush, countP_push_toNat, hcell, List.countP_append, ← htiles]
    change atlas.regions.countP _ + _ = _
    cases hs : shelf.hasCell ci cj <;> simp [hs, Nat.add_assoc]

/-! ## Cutting out the new region -/

theorem Packed.allocate (h : Packed atlas shelves) {z : Rect} (hz : atlas.regions[id]? = some z)
    (hempty : z.hasArea = false) {b : Box} (hi : atlas.free[i]? = some b.rect)
    (hin : b.Within atlas.image.width atlas.image.height) (hright : b.x1 + width ≤ b.x2)
    (hbottom : b.y1 + height ≤ b.y2) : Packed (allocate id i width height atlas) shelves := by
  have hlarge := hin.mono h.width_le h.height_le
  have hrect : atlas.free.getD i .zero = b.rect := by
    rw [Array.getD_eq_getD_getElem?, hi]
    rfl
  have hregions : (Atlas.allocate id i width height atlas).regions =
      atlas.regions.setIfInBounds id (b.taken width height).rect := by
    rw [Atlas.allocate, hrect, Box.taken_rect hright hbottom hlarge]
  have hstrip := Box.within_strip hright hbottom hin
  have hremainder := Box.within_remainder hbottom hin
  constructor
  · exact h.limits
  · exact h.width_pos
  · exact h.width_le
  · exact h.height_le
  · exact h.stacked
  · intro r hr
    rw [hregions] at hr
    rcases Array.mem_or_eq_of_mem_setIfInBounds hr with hr | rfl
    · exact h.regions r hr
    · exact ⟨_, rfl, Box.within_taken hright hbottom hin⟩
  · intro r hr
    rcases mem_cut hi hlarge hright hbottom hr with hr | ⟨rfl, -⟩ | ⟨rfl, -⟩
    · exact h.free r hr
    · exact ⟨_, rfl, hstrip⟩
    · exact ⟨_, rfl, hremainder⟩
  · intro r hr
    rcases mem_cut hi hlarge hright hbottom hr with hr | ⟨-, harea⟩ | ⟨-, harea⟩
    · exact h.freeArea r hr
    · exact harea
    · exact harea
  · intro ci cj
    -- The record had no cell, and it gains just what the free list loses.
    have hset := countP_setIfInBounds atlas.regions (b.taken width height).rect (·.hasCell ci cj) hz
    have hnone := hasCell_of_boxed (h.boxed_region hz) h.width_le h.height_le hempty ci cj
    have hcut := countP_cut hi hlarge hright hbottom ci cj
    rw [hnone, Bool.toNat_false] at hset
    rw [← h.tiles ci cj, hregions]
    change _ + (cut i width height atlas.free).countP _ = _
    omega

end SpriteField.Atlas
