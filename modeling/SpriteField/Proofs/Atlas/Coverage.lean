import SpriteField.Proofs.Atlas.Calls

/-!
# What the rectangles of an atlas cover

In every state that calls reach from a new atlas, each cell of a shelf lies in exactly one rectangle,
of a region that holds pixels or of the free list.  All corners are whole, so nothing that the
packing computes from them is rounded.
-/

namespace SpriteField.Atlas

variable {atlas : Atlas} {shelves : List Shelf}

theorem Packed.stateAfter_setRegion (h : Packed atlas shelves) (id width height : Nat)
    (pixels : Array Color) (stride : Nat) :
    Packed (stateAfter (setRegion id width height pixels stride) atlas)
      (shelves ++ growth atlas
        (stateAfter (setRegion id width height pixels stride) atlas)) := by
  have houtcome := setRegion_outcome h id width height pixels stride
  unfold stateAfter
  generalize setRegion id width height pixels stride atlas = result at houtcome ⊢
  cases houtcome with
  | refused error =>
    rw [growth_of_height_eq rfl, List.append_nil]
    exact h
  | full error =>
    have hgrowth : growth atlas (atlas.extend id) = [] := growth_of_height_eq rfl
    dsimp only
    rw [hgrowth, List.append_nil]
    exact h.extend id
  | emptied hempty =>
    have hgrowth : growth atlas (atlas.vacated id) = [] := growth_of_height_eq rfl
    dsimp only
    rw [hgrowth, List.append_nil]
    exact h.vacated id
  | @placed i placed b hsource hplaced =>
    obtain ⟨z, hz, hempty⟩ := h.vacated_region id
    rw [← hplaced.regions] at hz
    exact hplaced.packed.allocate hz hempty hplaced.free hplaced.within hplaced.right
      hplaced.bottom

theorem Packed.stateAfter_resetRegion (h : Packed atlas shelves) (id : Nat) :
    Packed (stateAfter (resetRegion id) atlas)
      (shelves ++ growth atlas (stateAfter (resetRegion id) atlas)) := by
  rcases resetRegion_cases id atlas with ⟨error, hrefused⟩ | hdone
  · rw [stateAfter_of_error hrefused, growth_of_height_eq rfl, List.append_nil]
    exact h
  · have hgrowth : growth atlas (atlas.vacated id) = [] := growth_of_height_eq rfl
    rw [stateAfter_of_ok hdone, hgrowth, List.append_nil]
    exact h.vacated id

theorem Packed.after (h : Packed atlas shelves) (call : Call) :
    Packed (atlas.after call) (shelves ++ growth atlas (atlas.after call)) := by
  cases call with
  | setRegion id width height pixels stride =>
    exact h.stateAfter_setRegion id width height pixels stride
  | resetRegion id => exact h.stateAfter_resetRegion id

theorem Packed.run (h : Packed atlas shelves) (calls : List Call) :
    Packed (atlas.run calls) (shelves ++ atlas.growths calls) := by
  unfold Atlas.run
  induction calls generalizing atlas shelves with
  | nil =>
    rw [growths, List.append_nil]
    exact h
  | cons call calls ih =>
    rw [growths, ← List.append_assoc]
    exact ih (h.after call)

theorem packed_within {limits : AtlasLimits} (h : limits.validate = .ok ()) :
    Packed (within limits) [] := by
  unfold AtlasLimits.validate at h
  split at h
  next => cases h
  next =>
    split at h
    next => cases h
    next hlarge =>
      rw [exactWholeMax] at hlarge
      constructor
      · change limits.maxWidth ≤ _ ∧ limits.maxHeight ≤ _
        omega
      · exact Nat.one_pos
      · exact Nat.one_le_two_pow
      · exact Nat.one_le_two_pow
      · rfl
      · intro r hr
        simp [within] at hr
      · intro r hr
        simp [within] at hr
      · intro r hr
        simp [within] at hr
      · intro i j
        rfl

theorem new_eq_ok {limits : AtlasLimits} {start : Atlas} (h : new limits = .ok start) :
    start = within limits ∧ limits.validate = .ok () := by
  unfold new at h
  cases hvalid : limits.validate with
  | error error =>
    rw [hvalid] at h
    cases h
  | ok value =>
    rw [hvalid] at h
    cases h
    exact ⟨rfl, rfl⟩

theorem packed_run {limits : AtlasLimits} {start : Atlas} (hnew : new limits = .ok start)
    (calls : List Call) : Packed (start.run calls) (start.growths calls) := by
  obtain ⟨rfl, hvalid⟩ := new_eq_ok hnew
  exact (packed_within hvalid).run calls

/-! ## The rectangles -/

/-- The rectangles of the regions that hold pixels, and the free ones. -/
def rects (atlas : Atlas) : List Rect :=
  atlas.liveRegions.map (·.2) ++ atlas.free.toList

theorem map_snd_liveRegions (atlas : Atlas) :
    atlas.liveRegions.map (·.2) = atlas.regions.toList.filter (·.hasArea) := by
  have hzip := congrArg (List.filter (·.hasArea)) (List.zipIdx_map_fst 0 atlas.regions.toList)
  rw [← hzip, List.filter_map, liveRegions, List.map_map]
  rfl

theorem Packed.boxed_rects (h : Packed atlas shelves) :
    ∀ r ∈ atlas.rects, ∃ b : Box, r = b.rect ∧
      b.Within atlas.image.width atlas.image.height := by
  intro r hr
  rw [rects, map_snd_liveRegions] at hr
  rcases List.mem_append.mp hr with hr | hr
  · exact h.regions r (Array.mem_toList_iff.mp (List.mem_of_mem_filter hr))
  · exact h.free r (Array.mem_toList_iff.mp hr)

theorem Packed.countP_rects (h : Packed atlas shelves) (i j : Int) :
    atlas.rects.countP (·.hasCell i j) =
      if ∃ s ∈ shelves, s.hasCell i j = true then 1 else 0 := by
  have hlive : (atlas.regions.toList.filter (·.hasArea)).countP (·.hasCell i j) =
      atlas.regions.countP (·.hasCell i j) := by
    rw [List.countP_filter, ← Array.countP_toList]
    apply List.countP_congr
    intro r hr
    have hboxed := h.regions r (Array.mem_toList_iff.mp hr)
    cases harea : r.hasArea with
    | true => simp
    | false => simp [hasCell_of_boxed hboxed h.width_le h.height_le harea i j]
  rw [rects, map_snd_liveRegions, List.countP_append, hlive, Array.countP_toList, h.tiles i j,
    h.stacked.countP_hasCell]

theorem Packed.pairwise_rects (h : Packed atlas shelves) :
    atlas.rects.Pairwise fun a b => a.collides b = false := by
  rw [List.pairwise_iff_forall_sublist]
  intro r r' hsublist
  rw [Bool.eq_false_iff]
  intro hcollides
  have hmem := hsublist.subset
  obtain ⟨b, rfl, hin⟩ := h.boxed_rects r (hmem (by simp))
  obtain ⟨b', rfl, hin'⟩ := h.boxed_rects r' (hmem (by simp))
  -- A cell of both rectangles would be covered twice.
  obtain ⟨i, j, hcell, hcell'⟩ := Box.collides_rect (hin.mono h.width_le h.height_le)
    (hin'.mono h.width_le h.height_le) hcollides
  have htwo := hsublist.countP_le (p := (·.hasCell i j))
  have hone := h.countP_rects i j
  simp only [List.countP_cons, hcell, hcell', List.countP_nil, if_true] at htwo
  split at hone
  · omega
  · omega

theorem Packed.collides_regions (h : Packed atlas shelves) {id id' : Nat} {r r' : Rect}
    (hne : id ≠ id') (hr : atlas.region? id = some r) (hr' : atlas.region? id' = some r')
    (harea : r.hasArea = true) (harea' : r'.hasArea = true) : r.collides r' = false := by
  have hpairwise := (List.pairwise_append.mp h.pairwise_rects).1
  rw [map_snd_liveRegions, List.pairwise_filter, List.pairwise_iff_getElem] at hpairwise
  obtain ⟨hid, rfl⟩ := Array.getElem?_eq_some_iff.mp hr
  obtain ⟨hid', rfl⟩ := Array.getElem?_eq_some_iff.mp hr'
  rcases Nat.lt_or_gt_of_ne hne with hlt | hlt
  · exact hpairwise id id' hid hid' hlt harea harea'
  · rw [Rect.collides_comm]
    exact hpairwise id' id hid' hid hlt harea' harea

/-- The numbers that the packing computes from a rectangle are exact. -/
structure ExactlyCut (r : Rect) : Prop where
  width : r.width.units = r.x2.units - r.x1.units
  height : r.height.units = r.y2.units - r.y1.units
  fits : ∀ width height, width ≤ 2 ^ 24 → height ≤ 2 ^ 24 →
    (fits width height r = true ↔
      r.x1.units + width * Binary32.unitsPerOne ≤ r.x2.units ∧
      r.y1.units + height * Binary32.unitsPerOne ≤ r.y2.units)
  corner : ∀ width height, width ≤ 2 ^ 24 → height ≤ 2 ^ 24 →
    Atlas.fits width height r = true →
      (r.x1 + .ofNat width).units = r.x1.units + width * Binary32.unitsPerOne ∧
      (r.y1 + .ofNat height).units = r.y1.units + height * Binary32.unitsPerOne

theorem exactlyCut_of_within {b : Box} (h : b.Within (2 ^ 24) (2 ^ 24)) : ExactlyCut b.rect := by
  have hx1 := Binary32.units_ofNat (Box.x1_le h)
  have hx2 := Binary32.units_ofNat h.right_le
  have hy1 := Binary32.units_ofNat (Box.y1_le h)
  have hy2 := Binary32.units_ofNat h.bottom_le
  have hleft := h.left_le
  have hright := h.right_le
  have htop := h.top_le
  have hbottom := h.bottom_le
  constructor
  · rw [Box.width_rect h, Binary32.units_ofNat (by omega)]
    dsimp only [Box.rect]
    rw [hx1, hx2, Nat.cast_sub hleft, sub_mul]
  · rw [Box.height_rect h, Binary32.units_ofNat (by omega)]
    dsimp only [Box.rect]
    rw [hy1, hy2, Nat.cast_sub htop, sub_mul]
  · intro width height hwidth hheight
    rw [Box.fits_rect h hwidth hheight]
    dsimp only [Box.rect]
    rw [hx1, hx2, hy1, hy2]
    unfold Binary32.unitsPerOne
    omega
  · intro width height hwidth hheight hfits
    obtain ⟨hfitsRight, hfitsBottom⟩ := (Box.fits_rect h hwidth hheight).mp hfits
    dsimp only [Box.rect]
    constructor
    · rw [Binary32.ofNat_add_ofNat (by omega), Binary32.units_ofNat (by omega), hx1, Nat.cast_add,
        add_mul]
    · rw [Binary32.ofNat_add_ofNat (by omega), Binary32.units_ofNat (by omega), hy1, Nat.cast_add,
        add_mul]

/-- The rectangles of an atlas tile the shelves. -/
structure Tiles (atlas : Atlas) (shelves : List Shelf) : Prop where
  stacked : Stacked 1 shelves atlas.image.height
  size_le : atlas.image.width ≤ 2 ^ 24 ∧ atlas.image.height ≤ 2 ^ 24
  covered : ∀ i j : Int, atlas.rects.countP (·.hasCell i j) =
    if ∃ s ∈ shelves, s.hasCell i j = true then 1 else 0
  whole : ∀ r ∈ atlas.rects, ∃ x1 y1 x2 y2 : Nat,
    r = ⟨.ofNat x1, .ofNat y1, .ofNat x2, .ofNat y2⟩ ∧
    (x1 ≤ x2 ∧ x2 ≤ atlas.image.width) ∧ (y1 ≤ y2 ∧ y2 ≤ atlas.image.height)
  exact : ∀ r ∈ atlas.rects, ExactlyCut r
  disjoint : atlas.rects.Pairwise fun a b => a.collides b = false
  inside : ∀ r ∈ atlas.rects,
    (Rect.mk .zero .zero (.ofNat atlas.image.width) (.ofNat atlas.image.height)).contains r = true
  placeholder : ∀ r ∈ atlas.rects, r.hasCell 0 0 = false

theorem Packed.tilesShelves (h : Packed atlas shelves) : Tiles atlas shelves := by
  constructor
  · exact h.stacked
  · exact ⟨h.width_le, h.height_le⟩
  · exact h.countP_rects
  · intro r hr
    obtain ⟨b, rfl, hin⟩ := h.boxed_rects r hr
    exact ⟨b.x1, b.y1, b.x2, b.y2, rfl, ⟨hin.left_le, hin.right_le⟩, hin.top_le, hin.bottom_le⟩
  · intro r hr
    obtain ⟨b, rfl, hin⟩ := h.boxed_rects r hr
    exact exactlyCut_of_within (hin.mono h.width_le h.height_le)
  · exact h.pairwise_rects
  · intro r hr
    obtain ⟨b, rfl, hin⟩ := h.boxed_rects r hr
    exact Box.contains_rect (hin.mono h.width_le h.height_le) h.width_le h.height_le hin
  · intro r hr
    have hnone : ¬∃ s ∈ shelves, s.hasCell 0 0 = true := by
      rintro ⟨s, hs, hcell⟩
      have htop := h.stacked.top_le hs
      simp only [Shelf.hasCell, Bool.and_eq_true, decide_eq_true_eq] at hcell
      omega
    have hcount := h.countP_rects 0 0
    rw [if_neg hnone, List.countP_eq_zero] at hcount
    exact Bool.eq_false_iff.mpr (hcount r hr)

/-- In every state that calls reach from a new atlas, the rectangles tile the shelves that the calls
have added. -/
theorem run_tiles {limits : AtlasLimits} {start : Atlas} (hnew : new limits = .ok start)
    (calls : List Call) : Tiles (start.run calls) (start.growths calls) :=
  (packed_run hnew calls).tilesShelves

/-- A region that gives way to a smaller one, and its release. -/
theorem tiles_after_release :
    new .standard = .ok (within .standard) ∧
      let calls : List Call :=
        [.setRegion 0 4 4 (Array.replicate 16 .white) 4,
          .setRegion 0 2 3 (Array.replicate 6 .white) 2, .resetRegion 0]
      Tiles ((within .standard).run calls) ((within .standard).growths calls) :=
  have hnew : new .standard = .ok (within .standard) := rfl
  ⟨hnew, run_tiles hnew _⟩

end SpriteField.Atlas
