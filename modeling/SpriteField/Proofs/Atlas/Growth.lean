import SpriteField.Proofs.Atlas.Coverage

/-!
# Growth of an atlas

The image never shrinks.  It grows only if no free rectangle is large enough for a block, and then
no further than the limits allow.
-/

namespace SpriteField.Atlas

variable {atlas opened placed before after last : Atlas} {shelves : List Shelf}
  {id i width height stride : Nat} {pixels : Array Color} {b : Box}

/-- The image has kept its size. -/
structure SameSize (before after : Atlas) : Prop where
  width : after.image.width = before.image.width
  height : after.image.height = before.image.height

theorem SameSize.refl (atlas : Atlas) : SameSize atlas atlas :=
  ⟨rfl, rfl⟩

theorem SameSize.trans (h : SameSize before after) (h' : SameSize after last) :
    SameSize before last :=
  ⟨h'.width.trans h.width, h'.height.trans h.height⟩

/-- The image has got a new shelf for a block, as no free rectangle was large enough. -/
structure GrownFor (width height : Nat) (before after : Atlas) : Prop where
  none_fits : before.free.findIdx? (fits width height) = none
  width_eq : after.image.width = max before.image.width width
  height_eq : after.image.height = before.image.height + height
  width_le : after.image.width ≤ before.limits.maxWidth
  height_le : after.image.height ≤ before.limits.maxHeight

/-- What one call or many can do to the limits, the image's size and the number of records. -/
structure Grows (before after : Atlas) : Prop where
  limits : after.limits = before.limits
  wide : before.image.width ≤ after.image.width
  high : before.image.height ≤ after.image.height
  width_le : after.image.width ≤ max before.image.width before.limits.maxWidth
  height_le : after.image.height ≤ max before.image.height before.limits.maxHeight
  records : after.regions.size ≤ max before.regions.size (maxRegionId + 1)

theorem Grows.refl (atlas : Atlas) : Grows atlas atlas := by
  constructor <;> simp

theorem Grows.trans (h : Grows before after) (h' : Grows after last) : Grows before last := by
  obtain ⟨hlimits, hwide, hhigh, hwidth, hheight, hrecords⟩ := h
  obtain ⟨hlimits', hwide', hhigh', hwidth', hheight', hrecords'⟩ := h'
  rw [hlimits] at hwidth' hheight'
  constructor
  · exact hlimits'.trans hlimits
  all_goals omega

/-! ## One call -/

theorem Opens.size (hopens : Opens width height atlas i opened) :
    SameSize atlas opened ∨ GrownFor width height atlas opened := by
  cases hopens with
  | hit hi => exact Or.inl ⟨rfl, rfl⟩
  | @grown image hnone hmaxWidth hmaxHeight himage =>
    obtain ⟨hwidth, hheight, -⟩ := Image.resize_ok himage
    exact Or.inr ⟨hnone, hwidth, hheight, hwidth.trans_le hmaxWidth, hheight.trans_le hmaxHeight⟩

theorem Opens.limits (hopens : Opens width height atlas i opened) :
    opened.limits = atlas.limits := by
  cases hopens with
  | hit => rfl
  | grown => rfl

theorem Placed.size (hplaced : Placed atlas placed shelves width height pixels stride i b) :
    SameSize atlas placed ∨ GrownFor width height atlas placed := by
  obtain ⟨opened, image, hopens, rfl, hwidth, hheight⟩ := hplaced.opens
  rcases hopens.size with hsame | hgrown
  · exact Or.inl ⟨hwidth.trans hsame.width, hheight.trans hsame.height⟩
  · obtain ⟨hnone, hwidth', hheight', hmaxWidth, hmaxHeight⟩ := hgrown
    exact Or.inr ⟨hnone, hwidth.trans hwidth', hheight.trans hheight', hwidth.trans_le hmaxWidth,
      hheight.trans_le hmaxHeight⟩

theorem size_extend_le (hid : id ≤ maxRegionId) (atlas : Atlas) :
    (atlas.extend id).regions.size ≤ max atlas.regions.size (maxRegionId + 1) := by
  simp [extend]
  omega

@[simp] theorem size_release (id : Nat) (atlas : Atlas) :
    (release id atlas).regions.size = atlas.regions.size := by
  simp [release]

theorem grows_extend (hid : id ≤ maxRegionId) (atlas : Atlas) :
    Grows atlas (atlas.extend id) := by
  constructor
  · rfl
  · exact le_rfl
  · exact le_rfl
  · exact le_max_left _ _
  · exact le_max_left _ _
  · exact size_extend_le hid atlas

theorem grows_vacated (hid : id ≤ maxRegionId) (atlas : Atlas) :
    Grows atlas (atlas.vacated id) := by
  have h := grows_extend hid atlas
  constructor
  · exact h.limits
  · exact h.wide
  · exact h.high
  · exact h.width_le
  · exact h.height_le
  · rw [vacated, size_release]
    exact h.records

theorem Placed.grows (hplaced : Placed atlas placed shelves width height pixels stride i b) :
    Grows atlas (allocate id i width height placed) := by
  have hlimits : placed.limits = atlas.limits := by
    obtain ⟨opened, image, hopens, rfl, -⟩ := hplaced.opens
    exact hopens.limits
  have hrecords : (allocate id i width height placed).regions.size = atlas.regions.size := by
    simp [allocate, hplaced.regions]
  constructor
  · exact hlimits
  · exact hplaced.wide
  · exact hplaced.high
  · change placed.image.width ≤ _
    rcases hplaced.size with hsame | hgrown
    · exact hsame.width.trans_le (le_max_left _ _)
    · exact hgrown.width_le.trans (le_max_right _ _)
  · change placed.image.height ≤ _
    rcases hplaced.size with hsame | hgrown
    · exact hsame.height.trans_le (le_max_left _ _)
    · exact hgrown.height_le.trans (le_max_right _ _)
  · exact hrecords.trans_le (le_max_left _ _)

theorem Packed.grows_after (h : Packed atlas shelves) (call : Call) :
    Grows atlas (atlas.after call) := by
  cases call with
  | setRegion id width height pixels stride =>
    have houtcome := setRegion_outcome h id width height pixels stride
    unfold Atlas.after stateAfter
    dsimp only
    generalize setRegion id width height pixels stride atlas = result at *
    cases houtcome with
    | refused error => exact .refl atlas
    | full error hid => exact grows_extend hid atlas
    | emptied hempty hid => exact grows_vacated hid atlas
    | placed hsource hplaced hid =>
      exact (grows_vacated hid atlas).trans hplaced.grows
  | resetRegion id =>
    unfold Atlas.after
    dsimp only
    by_cases hid : id ≤ maxRegionId
    · rw [stateAfter_of_ok (resetRegion_ok hid atlas)]
      exact grows_vacated hid atlas
    · rw [stateAfter_of_error (resetRegion_error (Nat.not_le.mp hid) atlas)]
      exact .refl atlas

/-! ## Runs -/

theorem Packed.grows_run (h : Packed atlas shelves) (calls : List Call) :
    Grows atlas (atlas.run calls) := by
  unfold Atlas.run
  induction calls generalizing atlas shelves with
  | nil => exact .refl atlas
  | cons call calls ih => exact (h.grows_after call).trans (ih (h.after call))

/-- An atlas that keeps to its limits, and whose records have ids that can be given. -/
structure WithinLimits (limits : AtlasLimits) (atlas : Atlas) : Prop where
  limits_eq : atlas.limits = limits
  width_le : atlas.image.width ≤ limits.maxWidth
  height_le : atlas.image.height ≤ limits.maxHeight
  records : atlas.regions.size ≤ maxRegionId + 1

theorem pos_of_validate {limits : AtlasLimits} (h : limits.validate = .ok ()) :
    0 < limits.maxWidth ∧ 0 < limits.maxHeight := by
  unfold AtlasLimits.validate at h
  split at h
  next => cases h
  next hpos => omega

theorem withinLimits_run {limits : AtlasLimits} {start : Atlas} (hnew : new limits = .ok start)
    (calls : List Call) : WithinLimits limits (start.run calls) := by
  obtain ⟨rfl, hvalid⟩ := new_eq_ok hnew
  obtain ⟨hlimits, -, -, hwidth, hheight, hrecords⟩ := (packed_within hvalid).grows_run calls
  obtain ⟨hposWidth, hposHeight⟩ := pos_of_validate hvalid
  constructor
  · exact hlimits
  · exact hwidth.trans (max_le hposWidth le_rfl)
  · exact hheight.trans (max_le hposHeight le_rfl)
  · simpa [within] using hrecords

end SpriteField.Atlas
