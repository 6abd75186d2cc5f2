import SpriteField.Proofs.Atlas.Packing

/-!
# Calls of the atlas

A call that is refused changes nothing but the number of records.  Otherwise the region is released
and, unless it is to be empty, placed: its pixels are written to the corner of a free rectangle, and
what lies elsewhere in the image stays.
-/

namespace SpriteField.Atlas

/-- The shelf by which one state of an atlas is higher than an earlier one. -/
def growth (before after : Atlas) : List Shelf :=
  if before.image.height < after.image.height then
    [⟨after.image.width, before.image.height, after.image.height⟩]
  else []

variable {atlas opened placed : Atlas} {shelves : List Shelf} {id i width height stride : Nat}
  {pixels : Array Color}

theorem growth_of_height_eq {before after : Atlas}
    (h : after.image.height = before.image.height) : growth before after = [] :=
  if_neg (by omega)

/-! ## Finding a free rectangle -/

def countHit (atlas : Atlas) : Atlas :=
  { atlas with counters.freeListHits := atlas.counters.freeListHits.increment 1 }

/-- The free rectangle `i` of `opened` takes the block: it was free before, or it is a new shelf. -/
inductive Opens (width height : Nat) (atlas : Atlas) : Nat → Atlas → Prop
  | hit {i : Nat} (hi : atlas.free.findIdx? (fits width height) = some i) :
    Opens width height atlas i atlas.countHit
  | grown {image : Image} (hnone : atlas.free.findIdx? (fits width height) = none)
    (hmaxWidth : max atlas.image.width width ≤ atlas.limits.maxWidth)
    (hmaxHeight : atlas.image.height + height ≤ atlas.limits.maxHeight)
    (himage : atlas.image.resize (max atlas.image.width width) (atlas.image.height + height)
      .transparent = .ok image) :
    Opens width height atlas atlas.free.size (atlas.grown image)

theorem bufferFits_of_le (hwidth : width ≤ 2 ^ 24) (hheight : height ≤ 2 ^ 24) :
    bufferFits Image.pixelBytes (width * height) = true := by
  have hmul : width * height ≤ 2 ^ 24 * 2 ^ 24 := Nat.mul_le_mul hwidth hheight
  rw [bufferFits, decide_eq_true_eq, Image.pixelBytes, maxBufferBytes]
  omega

theorem findFree_cases (h : Packed atlas shelves) (width height : Nat) :
    (∃ i opened, findFree width height atlas = .ok i opened ∧ Opens width height atlas i opened) ∨
      (atlas.free.findIdx? (fits width height) = none ∧
        (atlas.limits.maxWidth < max atlas.image.width width ∨
          atlas.limits.maxHeight < atlas.image.height + height) ∧
        findFree width height atlas = .error (.atlasFull (max atlas.image.width width)
          (atlas.image.height + height) atlas.limits.maxWidth atlas.limits.maxHeight) atlas) := by
  unfold findFree
  rw [get_bind]
  cases hfind : atlas.free.findIdx? (fits width height) with
  | some i => exact Or.inl ⟨i, _, rfl, .hit hfind⟩
  | none =>
    dsimp only
    unfold grow
    rw [get_bind]
    by_cases hfull : atlas.limits.maxWidth < max atlas.image.width width ∨
        atlas.limits.maxHeight < atlas.image.height + height
    · right
      refine ⟨rfl, hfull, ?_⟩
      simp only [if_pos hfull]
      rfl
    · left
      obtain ⟨hmaxWidth, hmaxHeight⟩ := not_or.mp hfull
      have hlimits := h.limits
      obtain ⟨image, himage⟩ :=
        atlas.image.resize_eq_ok (max atlas.image.width width) (atlas.image.height + height)
          .transparent (bufferFits_of_le (by omega) (by omega))
      obtain ⟨hwidth, hheight, -⟩ := Image.resize_ok himage
      refine ⟨atlas.free.size, atlas.grown image, ?_,
        .grown hfind (by omega) (by omega) himage⟩
      simp only [if_neg hfull, himage]
      rw [grown, hwidth, hheight]
      rfl

/-- The free rectangle found, as a box that is large enough. -/
structure Room (atlas opened : Atlas) (shelves : List Shelf) (width height i : Nat) (b : Box) :
    Prop where
  packed : Packed opened (shelves ++ growth atlas opened)
  regions : opened.regions = atlas.regions
  free : opened.free[i]? = some b.rect
  within : b.Within opened.image.width opened.image.height
  right : b.x1 + width ≤ b.x2
  bottom : b.y1 + height ≤ b.y2
  wide : atlas.image.width ≤ opened.image.width
  high : atlas.image.height ≤ opened.image.height
  kept : ∀ px py, px < atlas.image.width → py < atlas.image.height →
    opened.image.get? px py = atlas.image.get? px py

theorem Opens.room (h : Packed atlas shelves) (hopens : Opens width height atlas i opened)
    (hwidth : width ≤ 2 ^ 24) (hheight : height ≤ 2 ^ 24) (hpos : 0 < height) :
    ∃ b, Room atlas opened shelves width height i b := by
  cases hopens with
  | hit hi =>
    obtain ⟨hlt, hfits, -⟩ := Array.findIdx?_eq_some_iff_getElem.mp hi
    obtain ⟨b, hb, hin⟩ := h.free atlas.free[i] (Array.getElem_mem hlt)
    rw [hb] at hfits
    obtain ⟨hright, hbottom⟩ :=
      (Box.fits_rect (hin.mono h.width_le h.height_le) hwidth hheight).mp hfits
    have hgrowth : growth atlas atlas.countHit = [] := growth_of_height_eq rfl
    refine ⟨b, ?_, rfl, ?_, hin, hright, hbottom, le_rfl, le_rfl, fun _ _ _ _ => rfl⟩
    · rw [hgrowth, List.append_nil]
      exact h.congr rfl rfl rfl rfl rfl
    · rw [← hb]
      exact Array.getElem?_eq_getElem hlt
  | @grown image hnone hmaxWidth hmaxHeight himage =>
    have hlimits := h.limits
    obtain ⟨hnewWidth, hnewHeight, hpixels⟩ := Image.resize_ok himage
    have hgrowth : growth atlas (atlas.grown image) =
        [⟨image.width, atlas.image.height, image.height⟩] :=
      if_pos (show atlas.image.height < image.height by omega)
    refine ⟨⟨0, atlas.image.height, image.width, image.height⟩, ?_, rfl, ?_, ?_, ?_, ?_, ?_, ?_, ?_⟩
    · rw [hgrowth]
      exact h.grown (by omega) (by omega) (by omega) (by omega)
    · change (atlas.free.push _)[atlas.free.size]? = _
      rw [Array.getElem?_push, if_pos rfl]
      rfl
    · exact ⟨Nat.zero_le _, le_rfl, show atlas.image.height ≤ image.height by omega, le_rfl⟩
    · dsimp only
      omega
    · dsimp only
      omega
    · change atlas.image.width ≤ image.width
      omega
    · change atlas.image.height ≤ image.height
      omega
    · intro px py hx hy
      change image.get? px py = _
      rw [hpixels px py (by omega) (by omega), if_pos ⟨hx, hy⟩]

/-! ## Writing the pixels -/

/-- The pixels of a block, rows `stride` apart, are all there. -/
structure Source (width height : Nat) (pixels : Array Color) (stride : Nat) : Prop where
  width_pos : 0 < width
  height_pos : 0 < height
  width_le : width ≤ 2 ^ 24
  height_le : height ≤ 2 ^ 24
  stride_le : width ≤ stride
  size_le : (height - 1) * stride + width ≤ pixels.size

/-- The block is written to the corner of a free rectangle, which is still to be cut. -/
structure Placed (atlas placed : Atlas) (shelves : List Shelf) (width height : Nat)
    (pixels : Array Color) (stride i : Nat) (b : Box) : Prop where
  packed : Packed placed (shelves ++ growth atlas placed)
  opens : ∃ opened image, Opens width height atlas i opened ∧ placed = { opened with image } ∧
    image.width = opened.image.width ∧ image.height = opened.image.height
  regions : placed.regions = atlas.regions
  free : placed.free[i]? = some b.rect
  within : b.Within placed.image.width placed.image.height
  right : b.x1 + width ≤ b.x2
  bottom : b.y1 + height ≤ b.y2
  wide : atlas.image.width ≤ placed.image.width
  high : atlas.image.height ≤ placed.image.height
  written : ∀ p q, p < width → q < height →
    placed.image.get? (b.x1 + p) (b.y1 + q) = pixels[q * stride + p]?
  kept : ∀ px py, px < atlas.image.width → py < atlas.image.height →
    ¬(b.x1 ≤ px ∧ px < b.x1 + width ∧ b.y1 ≤ py ∧ py < b.y1 + height) →
    placed.image.get? px py = atlas.image.get? px py

theorem place_cases (h : Packed atlas shelves) (hsource : Source width height pixels stride) :
    (∃ i placed b, place width height pixels stride atlas = .ok i placed ∧
      Placed atlas placed shelves width height pixels stride i b) ∨
      (atlas.free.findIdx? (fits width height) = none ∧
        (atlas.limits.maxWidth < max atlas.image.width width ∨
          atlas.limits.maxHeight < atlas.image.height + height) ∧
        place width height pixels stride atlas = .error (.atlasFull (max atlas.image.width width)
          (atlas.image.height + height) atlas.limits.maxWidth atlas.limits.maxHeight) atlas) := by
  unfold place
  rcases findFree_cases h width height with
    ⟨i, opened, hfind, hopens⟩ | ⟨hnone, hfull, hrefused⟩
  · obtain ⟨b, hroom⟩ := hopens.room h hsource.width_le hsource.height_le hsource.height_pos
    have hright := hroom.right
    have hbottom := hroom.bottom
    have hin := hroom.within
    have hlarge := hin.mono hroom.packed.width_le hroom.packed.height_le
    obtain ⟨image, hblit, hwidth, hheight, hwritten, hkept⟩ :=
      opened.image.blitFrom_eq_ok (x := b.x1) (y := b.y1) hsource.width_pos hsource.height_pos
        (hright.trans hin.right_le) (hbottom.trans hin.bottom_le) hsource.stride_le
        hsource.size_le
    have hcorner : opened.free.getD i .zero = b.rect := by
      rw [Array.getD_eq_getD_getElem?, hroom.free]
      rfl
    have hgrowth : growth atlas { opened with image } = growth atlas opened := by
      rw [growth, growth]
      dsimp only
      rw [hwidth, hheight]
    left
    refine ⟨i, { opened with image }, b, ?_, ?_⟩
    · rw [bind_of_ok hfind, get_bind]
      simp only [hcorner, Box.rect, Binary32.toNat_ofNat (Box.x1_le hlarge),
        Binary32.toNat_ofNat (Box.y1_le hlarge), hblit]
      rfl
    · constructor
      · rw [hgrowth]
        exact hroom.packed.congr rfl hwidth hheight rfl rfl
      · exact ⟨opened, image, hopens, rfl, hwidth, hheight⟩
      · exact hroom.regions
      · exact hroom.free
      · rw [hwidth, hheight]
        exact hin
      · exact hright
      · exact hbottom
      · rw [hwidth]
        exact hroom.wide
      · rw [hheight]
        exact hroom.high
      · exact hwritten
      · intro px py hx hy hout
        rw [hkept px py hout]
        exact hroom.kept px py hx hy
  · right
    exact ⟨hnone, hfull, bind_of_error hrefused⟩

/-! ## Whole calls -/

theorem checkSource_cases (width height : Nat) (pixels : Array Color) (stride : Nat)
    (atlas : Atlas) :
    (∃ error, checkSource width height pixels stride atlas = .error error atlas) ∨
      (checkSource width height pixels stride atlas = .ok ⟨⟩ atlas ∧
        (width = 0 ∨ height = 0 ∨ Source width height pixels stride)) := by
  unfold checkSource
  by_cases hlarge : exactWholeMax < width ∨ exactWholeMax < height
  · rw [if_pos hlarge]
    exact Or.inl ⟨_, rfl⟩
  rw [if_neg hlarge]
  by_cases hempty : width = 0 ∨ height = 0
  · rw [if_pos hempty]
    exact Or.inr ⟨rfl, hempty.imp_right Or.inl⟩
  rw [if_neg hempty]
  by_cases hstride : stride < width
  · rw [if_pos hstride]
    exact Or.inl ⟨_, rfl⟩
  rw [if_neg hstride]
  by_cases hsmall : pixels.size < (height - 1) * stride + width
  · rw [if_pos hsmall]
    exact Or.inl ⟨_, rfl⟩
  rw [if_neg hsmall]
  rw [exactWholeMax] at hlarge
  exact Or.inr ⟨rfl, Or.inr (Or.inr
    ⟨by omega, by omega, by omega, by omega, by omega, by omega⟩)⟩

theorem checkSource_of_source (hsource : Source width height pixels stride) (atlas : Atlas) :
    checkSource width height pixels stride atlas = .ok ⟨⟩ atlas := by
  obtain ⟨hwidth, hheight, hwidthLe, hheightLe, hstride, hsize⟩ := hsource
  unfold checkSource
  rw [if_neg (by rw [exactWholeMax]; omega), if_neg (by omega), if_neg (by omega)]
  rw [if_neg (Nat.not_lt.mpr hsize)]
  rfl

/-- The atlas with the records that a region needs, and the region without extent. -/
def vacated (atlas : Atlas) (id : Nat) : Atlas :=
  release id (atlas.extend id)

theorem exists_record (atlas : Atlas) (id : Nat) : ∃ r, (atlas.extend id).regions[id]? = some r :=
  ⟨_, Array.getElem?_eq_getElem (atlas.lt_size_extend id)⟩

theorem Packed.vacated (h : Packed atlas shelves) (id : Nat) :
    Packed (atlas.vacated id) shelves := by
  obtain ⟨r, hr⟩ := atlas.exists_record id
  exact (h.extend id).release hr

theorem Packed.vacated_region (h : Packed atlas shelves) (id : Nat) :
    ∃ z, (atlas.vacated id).regions[id]? = some z ∧ z.hasArea = false := by
  obtain ⟨r, hr⟩ := atlas.exists_record id
  refine ⟨r.collapsed, ?_, ?_⟩
  · rw [Atlas.vacated, getElem?_release hr, if_pos rfl]
  · exact hasArea_collapsed ((h.extend id).boxed_region hr) h.width_le h.height_le

/-- A region that there are pixels for is placed, or there is no room for it and all is as before. -/
theorem setRegion_of_source (h : Packed atlas shelves) (hid : id ≤ maxRegionId)
    (hsource : Source width height pixels stride) :
    (∃ i placed b, Placed (atlas.vacated id) placed shelves width height pixels stride i b ∧
      setRegion id width height pixels stride atlas = .ok ⟨⟩ (allocate id i width height placed)) ∨
      ((atlas.vacated id).free.findIdx? (fits width height) = none ∧
        (atlas.limits.maxWidth < max atlas.image.width width ∨
          atlas.limits.maxHeight < atlas.image.height + height) ∧
        setRegion id width height pixels stride atlas =
          .error (.atlasFull (max atlas.image.width width) (atlas.image.height + height)
            atlas.limits.maxWidth atlas.limits.maxHeight) (atlas.extend id)) := by
  obtain ⟨r, hr⟩ := atlas.exists_record id
  have hwidth := hsource.width_pos
  have hheight := hsource.height_pos
  have hset : setRegion id width height pixels stride atlas = (do
      let i ← tryCatch (place width height pixels stride) fun error => do
        modify (unrelease id r (atlas.extend id).free.size)
        throw error
      modify (allocate id i width height) : AtlasM Unit) (atlas.vacated id) := by
    unfold setRegion
    rw [bind_of_ok (checkSource_of_source hsource atlas), bind_of_ok (ensureRegion_ok hid atlas),
      get_bind, get_bind, modify_bind, if_neg (by omega), ← regionAt_eq hr]
    rfl
  rw [hset]
  rcases place_cases (h.vacated id) hsource with
    ⟨i, placed, b, hplace, hplaced⟩ | ⟨hnone, hlimits, hatlasFull⟩
  · refine Or.inl ⟨i, placed, b, hplaced, bind_of_ok ?_⟩
    rw [tryCatch_of_ok hplace]
  · refine Or.inr ⟨hnone, hlimits, bind_of_error ?_⟩
    -- Nothing but the release has happened, and the handler takes it back.
    rw [tryCatch_of_error hatlasFull, modify_bind]
    change EStateM.Result.error _ (unrelease id r (atlas.extend id).free.size
      (release id (atlas.extend id))) = _
    rw [unrelease_release hr]
    rfl

theorem setRegion_of_empty (hid : id ≤ maxRegionId) (hempty : width = 0 ∨ height = 0)
    (hchecked : checkSource width height pixels stride atlas = .ok ⟨⟩ atlas) :
    setRegion id width height pixels stride atlas = .ok ⟨⟩ (atlas.vacated id) := by
  unfold setRegion
  rw [bind_of_ok hchecked, bind_of_ok (ensureRegion_ok hid atlas), get_bind, get_bind,
    modify_bind, if_pos hempty]
  rfl

/-- Everything that setting a region can come to. -/
inductive SetOutcome (atlas : Atlas) (shelves : List Shelf) (id width height : Nat)
    (pixels : Array Color) (stride : Nat) : EStateM.Result EngineError Atlas Unit → Prop
  | refused (error : EngineError) :
    SetOutcome atlas shelves id width height pixels stride (.error error atlas)
  | full (error : EngineError) (hid : id ≤ maxRegionId) :
    SetOutcome atlas shelves id width height pixels stride (.error error (atlas.extend id))
  | emptied (hempty : width = 0 ∨ height = 0) (hid : id ≤ maxRegionId) :
    SetOutcome atlas shelves id width height pixels stride (.ok ⟨⟩ (atlas.vacated id))
  | placed {i : Nat} {placed : Atlas} {b : Box} (hsource : Source width height pixels stride)
    (hplaced : Placed (atlas.vacated id) placed shelves width height pixels stride i b)
    (hid : id ≤ maxRegionId) :
    SetOutcome atlas shelves id width height pixels stride
      (.ok ⟨⟩ (allocate id i width height placed))

theorem setRegion_outcome (h : Packed atlas shelves) (id width height : Nat)
    (pixels : Array Color) (stride : Nat) :
    SetOutcome atlas shelves id width height pixels stride
      (setRegion id width height pixels stride atlas) := by
  rcases checkSource_cases width height pixels stride atlas with
    ⟨error, hrefused⟩ | ⟨hchecked, hsource⟩
  · rw [setRegion, bind_of_error hrefused]
    exact .refused error
  by_cases hid : maxRegionId < id
  · rw [setRegion, bind_of_ok hchecked, bind_of_error (ensureRegion_error hid atlas)]
    exact .refused _
  have hid : id ≤ maxRegionId := by omega
  by_cases hempty : width = 0 ∨ height = 0
  · rw [setRegion_of_empty hid hempty hchecked]
    exact .emptied hempty hid
  have hsource : Source width height pixels stride :=
    ((or_assoc.mpr hsource).resolve_left hempty)
  rcases setRegion_of_source h hid hsource with
    ⟨i, placed, b, hplaced, hdone⟩ | ⟨-, -, hfull⟩
  · rw [hdone]
    exact .placed hsource hplaced hid
  · rw [hfull]
    exact .full _ hid

theorem resetRegion_ok (hid : id ≤ maxRegionId) (atlas : Atlas) :
    resetRegion id atlas = .ok ⟨⟩ (atlas.vacated id) := by
  unfold resetRegion
  rw [bind_of_ok (ensureRegion_ok hid atlas)]
  rfl

theorem resetRegion_error (hid : maxRegionId < id) (atlas : Atlas) :
    resetRegion id atlas = .error (.regionOutOfRange id) atlas :=
  bind_of_error (ensureRegion_error hid atlas)

theorem resetRegion_cases (id : Nat) (atlas : Atlas) :
    (∃ error, resetRegion id atlas = .error error atlas) ∨
      resetRegion id atlas = .ok ⟨⟩ (atlas.vacated id) := by
  by_cases hid : maxRegionId < id
  · exact Or.inl ⟨_, resetRegion_error hid atlas⟩
  · exact Or.inr (resetRegion_ok (Nat.not_lt.mp hid) atlas)

/-! ## Runs -/

inductive Call where
  | setRegion (id width height : Nat) (pixels : Array Color) (stride : Nat)
  | resetRegion (id : Nat)

/-- The atlas after a call, whether or not it was refused. -/
def after (atlas : Atlas) : Call → Atlas
  | .setRegion id width height pixels stride =>
    stateAfter (setRegion id width height pixels stride) atlas
  | .resetRegion id => stateAfter (resetRegion id) atlas

def run (atlas : Atlas) (calls : List Call) : Atlas :=
  calls.foldl after atlas

/-- The shelves that a list of calls adds to an atlas, in order. -/
def growths (atlas : Atlas) : List Call → List Shelf
  | [] => []
  | call :: calls => growth atlas (atlas.after call) ++ growths (atlas.after call) calls

end SpriteField.Atlas
