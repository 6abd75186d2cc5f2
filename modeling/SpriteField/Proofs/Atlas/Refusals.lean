import SpriteField.Proofs.Atlas.Content
import SpriteField.Proofs.Atlas.Growth

/-!
# When calls of the atlas are refused

A source that does not hold the block is refused first, then an id that is too large.  A block is
refused last, if neither a free rectangle nor the place of the region that it replaces is large
enough and the image cannot grow by a shelf for it.  Nothing else is refused.

Every refusal leaves the atlas as it was.  Only the last one comes after the records up to the id
have been made, and it keeps them.
-/

namespace SpriteField

/-- The rectangle is at least as wide and as high as a block. -/
def Rect.hasRoom (r : Rect) (width height : Nat) : Bool :=
  r.x1.units + width * Binary32.unitsPerOne ≤ r.x2.units &&
    r.y1.units + height * Binary32.unitsPerOne ≤ r.y2.units

namespace Atlas

variable {atlas placed : Atlas} {shelves : List Shelf} {id i width height stride : Nat}
  {pixels : Array Color} {b : Box}

/-! ## Room for a block -/

theorem fits_eq_hasRoom {r : Rect} {imageWidth imageHeight : Nat}
    (h : ∃ b : Box, r = b.rect ∧ b.Within imageWidth imageHeight) (hmaxWidth : imageWidth ≤ 2 ^ 24)
    (hmaxHeight : imageHeight ≤ 2 ^ 24) (hwidth : width ≤ 2 ^ 24) (hheight : height ≤ 2 ^ 24) :
    fits width height r = r.hasRoom width height := by
  obtain ⟨b, rfl, hin⟩ := h
  have hcut := exactlyCut_of_within (hin.mono hmaxWidth hmaxHeight)
  rw [Bool.eq_iff_iff, hcut.fits width height hwidth hheight]
  simp [Rect.hasRoom]

theorem hasRoom_rect (h : b.Within (2 ^ 24) (2 ^ 24)) :
    b.rect.hasRoom width height = true ↔ b.x1 + width ≤ b.x2 ∧ b.y1 + height ≤ b.y2 := by
  simp only [Rect.hasRoom, Box.rect, Bool.and_eq_true, decide_eq_true_eq,
    Binary32.units_ofNat (Box.x1_le h), Binary32.units_ofNat (Box.y1_le h),
    Binary32.units_ofNat h.right_le, Binary32.units_ofNat h.bottom_le]
  unfold Binary32.unitsPerOne
  omega

theorem hasArea_of_hasRoom {r : Rect} {imageWidth imageHeight : Nat}
    (h : ∃ b : Box, r = b.rect ∧ b.Within imageWidth imageHeight) (hmaxWidth : imageWidth ≤ 2 ^ 24)
    (hmaxHeight : imageHeight ≤ 2 ^ 24) (hwidth : 0 < width) (hheight : 0 < height)
    (hroom : r.hasRoom width height = true) : r.hasArea = true := by
  obtain ⟨b, rfl, hin⟩ := h
  have hlarge := hin.mono hmaxWidth hmaxHeight
  rw [hasRoom_rect hlarge] at hroom
  rw [Box.hasArea_rect hlarge]
  omega

/-- A free rectangle or the region itself has room for the block. -/
def hasRoom (atlas : Atlas) (id width height : Nat) : Bool :=
  atlas.free.any (·.hasRoom width height) || (atlas.region? id).any (·.hasRoom width height)

theorem hasRoom_eq_false_iff : atlas.hasRoom id width height = false ↔
    (∀ r ∈ atlas.free, r.hasRoom width height = false) ∧
      ∀ r, atlas.region? id = some r → r.hasRoom width height = false := by
  rw [hasRoom, Bool.or_eq_false_iff, Array.any_eq_false']
  cases atlas.region? id with
  | none => simp
  | some r => simp

/-- No rectangle has room for the block, and the image cannot grow by a shelf for it. -/
def isFull (atlas : Atlas) (id width height : Nat) : Bool :=
  !atlas.hasRoom id width height &&
    (atlas.limits.maxWidth < max atlas.image.width width ||
      atlas.limits.maxHeight < atlas.image.height + height)

theorem free_vacated (atlas : Atlas) (id : Nat) :
    (atlas.vacated id).free = pushFree atlas.free ((atlas.region? id).getD .zero) := by
  obtain ⟨r, hr⟩ := atlas.exists_record id
  have hregion : (atlas.region? id).getD .zero = r := by
    rw [getElem?_extend] at hr
    split at hr
    next => simp [region?, hr]
    next hsize =>
      rw [if_pos le_rfl] at hr
      have hnone : atlas.region? id = none := Array.getElem?_eq_none (Nat.not_lt.mp hsize)
      simpa [hnone] using hr
  rw [vacated, release_eq hr, hregion]
  rfl

/-- The search for a free rectangle comes after the region has been released. -/
theorem Packed.findIdx?_vacated_eq_none_iff (h : Packed atlas shelves)
    (hsource : Source width height pixels stride) :
    (atlas.vacated id).free.findIdx? (fits width height) = none ↔
      atlas.hasRoom id width height = false := by
  have hfits : ∀ r ∈ (atlas.vacated id).free, fits width height r = r.hasRoom width height :=
    fun r hr => fits_eq_hasRoom ((h.vacated id).free r hr) h.width_le h.height_le
      hsource.width_le hsource.height_le
  rw [Array.findIdx?_eq_none_iff, hasRoom_eq_false_iff]
  rw [free_vacated] at hfits ⊢
  constructor
  · intro hnone
    constructor
    · intro r hr
      have hmem : r ∈ pushFree atlas.free ((atlas.region? id).getD .zero) :=
        mem_pushFree.mpr (Or.inl hr)
      rw [← hfits r hmem]
      exact hnone r hmem
    · intro r hr
      rw [hr, Option.getD_some] at hfits hnone
      rw [Bool.eq_false_iff]
      intro hroom
      have harea := hasArea_of_hasRoom (h.boxed_region hr) h.width_le h.height_le
        hsource.width_pos hsource.height_pos hroom
      have hmem : r ∈ pushFree atlas.free r := mem_pushFree.mpr (Or.inr ⟨rfl, harea⟩)
      rw [← hfits r hmem, hnone r hmem] at hroom
      cases hroom
  · rintro ⟨hfree, hregion⟩ r hmem
    rw [hfits r hmem]
    rcases mem_pushFree.mp hmem with hr | ⟨rfl, harea⟩
    · exact hfree r hr
    · cases hr : atlas.region? id with
      | none =>
        rw [hr] at harea
        cases harea
      | some r => exact hregion r hr

theorem Placed.isFull_eq_false
    (hplaced : Placed (atlas.vacated id) placed shelves width height pixels stride i b)
    (h : Packed atlas shelves) (hsource : Source width height pixels stride) :
    atlas.isFull id width height = false := by
  rw [isFull, Bool.and_eq_false_iff, Bool.not_eq_false']
  obtain ⟨opened, image, hopens, -⟩ := hplaced.opens
  cases hopens with
  | hit hi =>
    left
    rw [← Bool.not_eq_false, ← h.findIdx?_vacated_eq_none_iff hsource, hi]
    simp
  | grown hnone hmaxWidth hmaxHeight himage =>
    right
    rw [Bool.or_eq_false_iff, decide_eq_false_iff_not, decide_eq_false_iff_not]
    exact ⟨Nat.not_lt.mpr hmaxWidth, Nat.not_lt.mpr hmaxHeight⟩

/-! ## The cause of a refusal -/

/-- Why a block is refused on account of its source, if it is. -/
def sourceRefusal? (width height : Nat) (pixels : Array Color) (stride : Nat) :
    Option EngineError :=
  if 2 ^ 24 < width ∨ 2 ^ 24 < height then some (.regionTooLarge width height (2 ^ 24))
  else if width = 0 ∨ height = 0 then none
  else if stride < width then some (.strideTooSmall stride width)
  else if pixels.size < (height - 1) * stride + width then
    some (.sourceTooSmall pixels.size ((height - 1) * stride + width))
  else none

def idRefusal? (id : Nat) : Option EngineError :=
  if 2 ^ 31 - 1 < id then some (.regionOutOfRange id) else none

def roomRefusal? (atlas : Atlas) (id width height : Nat) : Option EngineError :=
  if 0 < width ∧ 0 < height ∧ atlas.isFull id width height = true then
    some (.atlasFull (max atlas.image.width width) (atlas.image.height + height)
      atlas.limits.maxWidth atlas.limits.maxHeight)
  else none

/-- Why a call is refused, if it is. -/
def Call.refusal? (atlas : Atlas) : Call → Option EngineError
  | .setRegion id width height pixels stride =>
    (sourceRefusal? width height pixels stride).or
      ((idRefusal? id).or (atlas.roomRefusal? id width height))
  | .resetRegion id => idRefusal? id

def Call.program : Call → AtlasM Unit
  | .setRegion id width height pixels stride => Atlas.setRegion id width height pixels stride
  | .resetRegion id => Atlas.resetRegion id

theorem after_eq_stateAfter (atlas : Atlas) (call : Call) :
    atlas.after call = stateAfter call.program atlas := by
  cases call <;> rfl

theorem checkSource_of_some {error : EngineError}
    (h : sourceRefusal? width height pixels stride = some error) (atlas : Atlas) :
    checkSource width height pixels stride atlas = .error error atlas := by
  have hmax : exactWholeMax = 2 ^ 24 := rfl
  unfold sourceRefusal? at h
  unfold checkSource
  dsimp only
  rw [hmax]
  split_ifs at h ⊢ <;> cases h <;> rfl

theorem checkSource_of_none (h : sourceRefusal? width height pixels stride = none)
    (atlas : Atlas) : checkSource width height pixels stride atlas = .ok ⟨⟩ atlas := by
  have hmax : exactWholeMax = 2 ^ 24 := rfl
  unfold sourceRefusal? at h
  unfold checkSource
  dsimp only
  rw [hmax]
  split_ifs at h ⊢ <;> rfl

theorem sourceRefusal?_eq_none_iff : sourceRefusal? width height pixels stride = none ↔
    width ≤ 2 ^ 24 ∧ height ≤ 2 ^ 24 ∧ (width = 0 ∨ height = 0 ∨
      width ≤ stride ∧ (height - 1) * stride + width ≤ pixels.size) := by
  unfold sourceRefusal?
  split_ifs <;> simp <;> omega

theorem source_of_sourceRefusal? (h : sourceRefusal? width height pixels stride = none)
    (hwidth : 0 < width) (hheight : 0 < height) : Source width height pixels stride := by
  obtain ⟨hwidthLe, hheightLe, hblock⟩ := sourceRefusal?_eq_none_iff.mp h
  obtain ⟨hstride, hsize⟩ := (hblock.resolve_left hwidth.ne').resolve_left hheight.ne'
  exact ⟨hwidth, hheight, hwidthLe, hheightLe, hstride, hsize⟩

@[simp] theorem idRefusal?_eq_none_iff : idRefusal? id = none ↔ id ≤ maxRegionId := by
  simp [idRefusal?, maxRegionId]

@[simp] theorem idRefusal?_eq_some_iff {error : EngineError} :
    idRefusal? id = some error ↔ maxRegionId < id ∧ error = .regionOutOfRange id := by
  simp [idRefusal?, maxRegionId, @eq_comm _ error]

@[simp] theorem roomRefusal?_eq_none_iff : atlas.roomRefusal? id width height = none ↔
    (0 < width → 0 < height → atlas.isFull id width height = false) := by
  simp [roomRefusal?]

@[simp] theorem roomRefusal?_eq_some_iff {error : EngineError} :
    atlas.roomRefusal? id width height = some error ↔
      (0 < width ∧ 0 < height ∧ atlas.isFull id width height = true) ∧
        error = .atlasFull (max atlas.image.width width) (atlas.image.height + height)
          atlas.limits.maxWidth atlas.limits.maxHeight := by
  simp [roomRefusal?, @eq_comm _ error]

/-! ## What a call comes to -/

/-- The error says that there is no room for the block. -/
def saysFull (error : EngineError) : Prop :=
  ∃ width height maxWidth maxHeight, error = .atlasFull width height maxWidth maxHeight

/-- A refused call leaves the atlas as it was, and perhaps some new records. -/
inductive Refused (atlas : Atlas) (call : Call) (error : EngineError) : Prop
  | unchanged (herror : call.program atlas = .error error atlas)
  | extended (hfull : saysFull error)
    (herror : call.program atlas = .error error (atlas.extend call.region))

theorem setRegion_of_sourceRefusal? {error : EngineError}
    (h : sourceRefusal? width height pixels stride = some error) :
    setRegion id width height pixels stride atlas = .error error atlas := by
  rw [setRegion, bind_of_error (checkSource_of_some h atlas)]

theorem setRegion_of_id (h : sourceRefusal? width height pixels stride = none)
    (hid : maxRegionId < id) :
    setRegion id width height pixels stride atlas = .error (.regionOutOfRange id) atlas := by
  rw [setRegion, bind_of_ok (checkSource_of_none h atlas),
    bind_of_error (ensureRegion_error hid atlas)]

section Packed

variable (h : Packed atlas shelves)
include h

theorem Packed.setRegion_of_full (hsource : Source width height pixels stride)
    (hid : id ≤ maxRegionId) (hfull : atlas.isFull id width height = true) :
    setRegion id width height pixels stride atlas =
      .error (.atlasFull (max atlas.image.width width) (atlas.image.height + height)
        atlas.limits.maxWidth atlas.limits.maxHeight) (atlas.extend id) := by
  rcases setRegion_of_source h hid hsource with ⟨i, placed, b, hplaced, -⟩ | ⟨-, -, hrefused⟩
  · rw [hplaced.isFull_eq_false h hsource] at hfull
    cases hfull
  · exact hrefused

theorem Packed.setRegion_of_not_full (hsource : Source width height pixels stride)
    (hid : id ≤ maxRegionId) (hfull : atlas.isFull id width height = false) :
    ∃ after, setRegion id width height pixels stride atlas = .ok ⟨⟩ after := by
  rcases setRegion_of_source h hid hsource with ⟨i, placed, b, -, hdone⟩ | ⟨hnone, hlimits, -⟩
  · exact ⟨_, hdone⟩
  · rw [h.findIdx?_vacated_eq_none_iff hsource] at hnone
    simp [isFull, hnone] at hfull
    omega

theorem Packed.refused {call : Call} {error : EngineError}
    (hrefusal : call.refusal? atlas = some error) : Refused atlas call error := by
  cases call with
  | setRegion id width height pixels stride =>
    simp only [Call.refusal?, Option.or_eq_some_iff, idRefusal?_eq_some_iff,
      idRefusal?_eq_none_iff, roomRefusal?_eq_some_iff] at hrefusal
    rcases hrefusal with hsource | ⟨hsource, ⟨hid, rfl⟩ | ⟨hid, ⟨hwidth, hheight, hfull⟩, rfl⟩⟩
    · exact .unchanged (setRegion_of_sourceRefusal? hsource)
    · exact .unchanged (setRegion_of_id hsource hid)
    · exact .extended ⟨_, _, _, _, rfl⟩
        (h.setRegion_of_full (source_of_sourceRefusal? hsource hwidth hheight) hid hfull)
  | resetRegion id =>
    simp only [Call.refusal?, idRefusal?_eq_some_iff] at hrefusal
    rw [hrefusal.2]
    exact .unchanged (resetRegion_error hrefusal.1 atlas)

theorem Packed.carriedOut {call : Call} (hrefusal : call.refusal? atlas = none) :
    ∃ after, call.program atlas = .ok ⟨⟩ after := by
  cases call with
  | setRegion id width height pixels stride =>
    simp only [Call.refusal?, Option.or_eq_none_iff, idRefusal?_eq_none_iff,
      roomRefusal?_eq_none_iff] at hrefusal
    obtain ⟨hsource, hid, hroom⟩ := hrefusal
    by_cases hempty : width = 0 ∨ height = 0
    · exact ⟨_, setRegion_of_empty hid hempty (checkSource_of_none hsource atlas)⟩
    · have hwidth : 0 < width := by omega
      have hheight : 0 < height := by omega
      exact h.setRegion_of_not_full (source_of_sourceRefusal? hsource hwidth hheight) hid
        (hroom hwidth hheight)
  | resetRegion id =>
    simp only [Call.refusal?, idRefusal?_eq_none_iff] at hrefusal
    exact ⟨_, resetRegion_ok hrefusal atlas⟩

end Packed

/-- In this state of the atlas a call fails for the first cause there is and for no other, and the
image keeps to the limits. -/
structure FailsExactly (limits : AtlasLimits) (atlas : Atlas) : Prop where
  refused_iff : ∀ (call : Call) (error : EngineError),
    (∃ after, call.program atlas = .error error after) ↔ call.refusal? atlas = some error
  done_iff : ∀ call : Call,
    (∃ after, call.program atlas = .ok ⟨⟩ after) ↔ call.refusal? atlas = none
  not_internal : ∀ (call : Call) (error : EngineError) (after : Atlas),
    call.program atlas = .error error after →
      (∀ fault, error ≠ .inconsistent fault) ∧ ∀ use, error ≠ .outOfMemory use
  limits_eq : atlas.limits = limits
  size_le : atlas.image.width ≤ limits.maxWidth ∧ atlas.image.height ≤ limits.maxHeight
  size_mono : ∀ call : Call, atlas.image.width ≤ (atlas.after call).image.width ∧
    atlas.image.height ≤ (atlas.after call).image.height

theorem not_internal_of_refusal? {call : Call} {error : EngineError}
    (h : call.refusal? atlas = some error) :
    (∀ fault, error ≠ .inconsistent fault) ∧ ∀ use, error ≠ .outOfMemory use := by
  cases call with
  | setRegion id width height pixels stride =>
    simp only [Call.refusal?, Option.or_eq_some_iff, idRefusal?_eq_some_iff,
      roomRefusal?_eq_some_iff] at h
    rcases h with hsource | ⟨-, ⟨-, rfl⟩ | ⟨-, -, rfl⟩⟩
    · unfold sourceRefusal? at hsource
      split_ifs at hsource <;> cases hsource <;> simp
    · simp
    · simp
  | resetRegion id =>
    simp only [Call.refusal?, idRefusal?_eq_some_iff] at h
    simp [h.2]

theorem Refused.exists_after {call : Call} {error : EngineError}
    (h : Refused atlas call error) : ∃ after, call.program atlas = .error error after := by
  cases h with
  | unchanged herror => exact ⟨_, herror⟩
  | extended hfull herror => exact ⟨_, herror⟩

theorem Packed.refusal?_of_error (h : Packed atlas shelves) {call : Call} {error : EngineError}
    {after : Atlas} (herror : call.program atlas = .error error after) :
    call.refusal? atlas = some error := by
  cases hrefusal : call.refusal? atlas with
  | none =>
    obtain ⟨after', hdone⟩ := h.carriedOut hrefusal
    rw [hdone] at herror
    cases herror
  | some reason =>
    obtain ⟨after', hrefused⟩ := (h.refused hrefusal).exists_after
    rw [hrefused] at herror
    cases herror
    rfl

theorem Packed.failsExactly (h : Packed atlas shelves) {limits : AtlasLimits}
    (hlimits : WithinLimits limits atlas) : FailsExactly limits atlas where
  refused_iff call error :=
    ⟨fun ⟨_, herror⟩ => h.refusal?_of_error herror, fun hrefusal =>
      (h.refused hrefusal).exists_after⟩
  done_iff call := by
    constructor
    · rintro ⟨after, hdone⟩
      cases hrefusal : call.refusal? atlas with
      | none => rfl
      | some error =>
        obtain ⟨after', hrefused⟩ := (h.refused hrefusal).exists_after
        rw [hdone] at hrefused
        cases hrefused
    · exact h.carriedOut
  not_internal call error after herror := not_internal_of_refusal? (h.refusal?_of_error herror)
  limits_eq := hlimits.limits_eq
  size_le := ⟨hlimits.width_le, hlimits.height_le⟩
  size_mono call := ⟨(h.grows_after call).wide, (h.grows_after call).high⟩

/-- In every state that calls reach from a new atlas, a call is refused for the first of the causes
that there is, and the image keeps to the limits and never shrinks. -/
theorem run_failsExactly {limits : AtlasLimits} {start : Atlas} (hnew : new limits = .ok start)
    (calls : List Call) : FailsExactly limits (start.run calls) :=
  (packed_run hnew calls).failsExactly (withinLimits_run hnew calls)

/-- An image that cannot grow any more has room only in place of its one region. -/
theorem failsExactly_when_full :
    let limits : AtlasLimits := ⟨4, 4⟩
    let atlas := (within limits).run [.setRegion 0 4 3 (Array.replicate 12 .white) 4]
    new limits = .ok (within limits) ∧ FailsExactly limits atlas ∧
      (∃ after, setRegion 1 1 1 #[.white] 1 atlas = .error (.atlasFull 4 5 4 4) after) ∧
      ∃ after, setRegion 0 3 2 (Array.replicate 8 .white) 5 atlas = .ok ⟨⟩ after := by
  intro limits atlas
  have hnew : new limits = .ok (within limits) := rfl
  have hexact : FailsExactly limits atlas := run_failsExactly hnew _
  exact ⟨hnew, hexact, (hexact.refused_iff (.setRegion 1 1 1 #[.white] 1) _).mpr (by decide +kernel),
    (hexact.done_iff (.setRegion 0 3 2 (Array.replicate 8 .white) 5)).mpr (by decide +kernel)⟩

/-! ## What a refusal leaves behind -/

/-- All that a refused call can change is the number of records, and that only for want of room. -/
structure RolledBack (call : Call) (error : EngineError) (before after : Atlas) : Prop where
  limits : after.limits = before.limits
  image : after.image = before.image
  free : after.free = before.free
  counters : after.counters = before.counters
  kept : ∀ id r, before.region? id = some r → after.region? id = some r
  regions : after.regions = before.regions ∨
    saysFull error ∧ after.regions = before.regions ++
      Array.replicate (call.region + 1 - before.regions.size) Rect.zero

theorem Refused.rolledBack {call : Call} {error : EngineError} {after : Atlas}
    (h : Refused atlas call error) (herror : call.program atlas = .error error after) :
    RolledBack call error atlas after := by
  cases h with
  | unchanged herror' =>
    rw [herror'] at herror
    cases herror
    exact ⟨rfl, rfl, rfl, rfl, fun _ _ hr => hr, Or.inl rfl⟩
  | extended hfull herror' =>
    rw [herror'] at herror
    cases herror
    refine ⟨rfl, rfl, rfl, rfl, ?_, Or.inr ⟨hfull, rfl⟩⟩
    intro id r hr
    have hlt : id < atlas.regions.size := (Array.getElem?_eq_some_iff.mp hr).1
    rw [region?, getElem?_extend, if_pos hlt]
    exact hr

/-- In every state that calls reach from a new atlas, a refused call takes back what it has done. -/
theorem run_rollsBack {limits : AtlasLimits} {start : Atlas} (hnew : new limits = .ok start)
    (calls : List Call) {call : Call} {error : EngineError} {after : Atlas}
    (herror : call.program (start.run calls) = .error error after) :
    RolledBack call error (start.run calls) after := by
  have hpacked := packed_run hnew calls
  exact (hpacked.refused (hpacked.refusal?_of_error herror)).rolledBack herror

/-- A region that is to become too high keeps its place, and one that was never touched gets a
record. -/
theorem rollsBack_when_full :
    let limits : AtlasLimits := ⟨4, 4⟩
    let atlas := (within limits).run [.setRegion 0 4 3 (Array.replicate 12 .white) 4]
    let block (id : Nat) := Call.setRegion id 4 4 (Array.replicate 16 .white) 4
    let error : EngineError := .atlasFull 4 8 4 4
    new limits = .ok (within limits) ∧
      (∃ after, (block 0).program atlas = .error error after ∧
        RolledBack (block 0) error atlas after) ∧
      ∃ after, (block 2).program atlas = .error error after ∧
        RolledBack (block 2) error atlas after := by
  intro limits atlas block error
  have hnew : new limits = .ok (within limits) := rfl
  have hpacked := packed_run hnew [.setRegion 0 4 3 (Array.replicate 12 .white) 4]
  have hreplace : (block 0).refusal? atlas = some error := by decide +kernel
  have hadd : (block 2).refusal? atlas = some error := by decide +kernel
  obtain ⟨after, hreplaced⟩ := (hpacked.refused hreplace).exists_after
  obtain ⟨after', hadded⟩ := (hpacked.refused hadd).exists_after
  exact ⟨hnew, ⟨after, hreplaced, run_rollsBack hnew _ hreplaced⟩,
    after', hadded, run_rollsBack hnew _ hadded⟩

end Atlas
end SpriteField
