import SpriteField.Proofs.Atlas.Coverage

/-!
# What the pixels of an atlas are

A region keeps its place and its pixels until it is set or reset again: whatever is written later
goes to a free rectangle, which shares no cell with the region, and a growth keeps all pixels.  The
first pixel of the image belongs to no shelf and stays white.
-/

namespace SpriteField.Atlas

variable {atlas placed : Atlas} {shelves : List Shelf} {id i width height stride : Nat}
  {pixels : Array Color} {b : Box}

/-! ## What a call leaves alone -/

theorem Packed.hasCell_free_of_no_shelf (h : Packed atlas shelves) {ci cj : Int}
    (hnone : ∀ s ∈ shelves, s.hasCell ci cj = false) {r : Rect} (hr : r ∈ atlas.free) :
    r.hasCell ci cj = false := by
  have hzero : shelves.countP (·.hasCell ci cj) = 0 := by
    rw [List.countP_eq_zero]
    intro s hs
    simp [hnone s hs]
  have htiles := h.tiles ci cj
  rw [hzero] at htiles
  have hfree : atlas.free.countP (·.hasCell ci cj) = 0 := by omega
  exact Bool.eq_false_iff.mpr (Array.countP_eq_zero.mp hfree r hr)

theorem Packed.hasCell_free_of_region (h : Packed atlas shelves) {ci cj : Int} {region r : Rect}
    (hregion : region ∈ atlas.regions) (hcell : region.hasCell ci cj = true)
    (hr : r ∈ atlas.free) : r.hasCell ci cj = false := by
  have htiles := h.tiles ci cj
  rw [h.stacked.countP_hasCell] at htiles
  have hpos : 0 < atlas.regions.countP (·.hasCell ci cj) :=
    Array.countP_pos_iff.mpr ⟨region, hregion, hcell⟩
  have hfree : atlas.free.countP (·.hasCell ci cj) = 0 := by
    split at htiles
    · omega
    · omega
  exact Bool.eq_false_iff.mpr (Array.countP_eq_zero.mp hfree r hr)

/-- A placement leaves alone what is not in the free rectangle that it cuts. -/
theorem Placed.get?_eq (h : Placed atlas placed shelves width height pixels stride i b)
    {px py : Nat} (hx : px < atlas.image.width) (hy : py < atlas.image.height)
    (hfree : b.rect.hasCell px py = false) :
    placed.image.get? px py = atlas.image.get? px py := by
  apply h.kept px py hx hy
  rintro ⟨hleft, hright, htop, hbottom⟩
  have hin := h.within.mono h.packed.width_le h.packed.height_le
  have hfitsRight := h.right
  have hfitsBottom := h.bottom
  have hcell : b.rect.hasCell px py = true := by
    rw [Box.hasCell_rect hin]
    omega
  rw [hfree] at hcell
  cases hcell

theorem getElem?_vacated {other : Nat} {r : Rect} (hr : atlas.regions[other]? = some r)
    (hne : other ≠ id) : (atlas.vacated id).regions[other]? = some r := by
  obtain ⟨record, hrecord⟩ := atlas.exists_record id
  have hlt : other < atlas.regions.size := (Array.getElem?_eq_some_iff.mp hr).1
  rw [vacated, getElem?_release hrecord, if_neg hne, getElem?_extend, if_pos hlt, hr]

theorem getElem?_allocate {other : Nat} (hne : other ≠ id) :
    (allocate id i width height atlas).regions[other]? = atlas.regions[other]? := by
  rw [allocate, Array.getElem?_setIfInBounds, if_neg (Ne.symm hne)]

/-- The region is at the given place and holds the given pixels. -/
structure Holds (atlas : Atlas) (id : Nat) (b : Box) (colors : Nat → Nat → Option Color) :
    Prop where
  region : atlas.regions[id]? = some b.rect
  within : b.Within atlas.image.width atlas.image.height
  pixel : ∀ px py, b.x1 ≤ px → px < b.x2 → b.y1 ≤ py → py < b.y2 →
    atlas.image.get? px py = colors px py

def Call.region : Call → Nat
  | .setRegion id _ _ _ _ => id
  | .resetRegion id => id

def Call.succeeds (call : Call) (atlas : Atlas) : Bool :=
  match call with
  | .setRegion id width height pixels stride =>
    SpriteField.succeeds (Atlas.setRegion id width height pixels stride) atlas
  | .resetRegion id => SpriteField.succeeds (Atlas.resetRegion id) atlas

theorem Holds.extend {colors : Nat → Nat → Option Color} (h : Holds atlas id b colors)
    (other : Nat) : Holds (atlas.extend other) id b colors := by
  constructor
  · have hlt : id < atlas.regions.size := (Array.getElem?_eq_some_iff.mp h.region).1
    rw [getElem?_extend, if_pos hlt, h.region]
  · exact h.within
  · exact h.pixel

theorem Holds.vacated {colors : Nat → Nat → Option Color} (h : Holds atlas id b colors)
    {other : Nat} (hne : id ≠ other) : Holds (atlas.vacated other) id b colors := by
  constructor
  · exact getElem?_vacated h.region hne
  · exact h.within
  · exact h.pixel

theorem Holds.allocate {colors : Nat → Nat → Option Color} (h : Holds atlas id b colors)
    {other : Nat} (hne : id ≠ other) {b' : Box}
    (hplaced : Placed atlas placed shelves width height pixels stride i b') :
    Holds (allocate other i width height placed) id b colors := by
  have hregion : placed.regions[id]? = some b.rect := by
    rw [hplaced.regions, h.region]
  have hin := h.within.mono hplaced.wide hplaced.high
  have hlarge := hin.mono hplaced.packed.width_le hplaced.packed.height_le
  constructor
  · rw [getElem?_allocate hne, hregion]
  · exact hin
  · intro px py hleft hright htop hbottom
    have hcell : b.rect.hasCell px py = true := by
      rw [Box.hasCell_rect hlarge]
      omega
    -- The block goes to a free rectangle, which has no cell of the region.
    have hfree := hplaced.packed.hasCell_free_of_region (Array.mem_of_getElem? hregion) hcell
      (Array.mem_of_getElem? hplaced.free)
    have hright' := h.within.right_le
    have hbottom' := h.within.bottom_le
    change placed.image.get? px py = _
    rw [hplaced.get?_eq (by omega) (by omega) hfree]
    exact h.pixel px py hleft hright htop hbottom

/-- A call on another region, or a refused one, leaves a region and its pixels alone. -/
theorem Holds.after {colors : Nat → Nat → Option Color} (h : Holds atlas id b colors)
    (hpacked : Packed atlas shelves) (call : Call)
    (hspared : call.region = id → call.succeeds atlas = false) :
    Holds (atlas.after call) id b colors := by
  cases call with
  | setRegion other width height pixels stride =>
    have houtcome := setRegion_outcome hpacked other width height pixels stride
    simp only [Call.region, Call.succeeds, SpriteField.succeeds] at hspared
    unfold Atlas.after stateAfter
    dsimp only
    generalize Atlas.setRegion other width height pixels stride atlas = result at *
    cases houtcome with
    | refused error => exact h
    | full error => exact h.extend other
    | emptied hempty =>
      have hne : id ≠ other := fun heq => by simp [heq] at hspared
      exact h.vacated hne
    | placed hsource hplaced =>
      have hne : id ≠ other := fun heq => by simp [heq] at hspared
      exact (h.vacated hne).allocate hne hplaced
  | resetRegion other =>
    simp only [Call.region, Call.succeeds, SpriteField.succeeds] at hspared
    unfold Atlas.after stateAfter
    dsimp only
    rcases resetRegion_cases other atlas with ⟨error, hrefused⟩ | hdone
    · rw [hrefused]
      exact h
    · rw [hdone] at hspared ⊢
      have hne : id ≠ other := fun heq => by simp [heq] at hspared
      exact h.vacated hne

/-- No call of the list that is about the region is carried out. -/
def Spares (id : Nat) : Atlas → List Call → Prop
  | _, [] => True
  | atlas, call :: calls =>
    (call.region = id → call.succeeds atlas = false) ∧ Spares id (atlas.after call) calls

theorem Holds.run {colors : Nat → Nat → Option Color} (h : Holds atlas id b colors)
    (hpacked : Packed atlas shelves) {calls : List Call} (hspared : Spares id atlas calls) :
    Holds (atlas.run calls) id b colors := by
  unfold Atlas.run
  induction calls generalizing atlas shelves with
  | nil => exact h
  | cons call calls ih =>
    obtain ⟨hcall, hrest⟩ := hspared
    exact ih (h.after hpacked call hcall) (hpacked.after call) hrest

/-! ## What a call writes -/

theorem Placed.holds (h : Placed atlas placed shelves width height pixels stride i b)
    (hid : id < atlas.regions.size) :
    Holds (allocate id i width height placed) id (b.taken width height)
      fun px py => pixels[(py - b.y1) * stride + (px - b.x1)]? := by
  have hlarge := h.within.mono h.packed.width_le h.packed.height_le
  have hrect : placed.free.getD i .zero = b.rect := by
    rw [Array.getD_eq_getD_getElem?, h.free]
    rfl
  constructor
  · rw [allocate, hrect, Box.taken_rect h.right h.bottom hlarge, Array.getElem?_setIfInBounds,
      if_pos rfl, h.regions, if_pos hid]
  · exact Box.within_taken h.right h.bottom h.within
  · intro px py hleft hright htop hbottom
    simp only [Box.taken] at hleft hright htop hbottom
    have hwritten := h.written (px - b.x1) (py - b.y1) (by omega) (by omega)
    rw [Nat.add_sub_cancel' hleft, Nat.add_sub_cancel' htop] at hwritten
    exact hwritten

theorem holds_after_setRegion (h : Packed atlas shelves) (hwidth : 0 < width)
    (hheight : 0 < height)
    (hdone : (Call.setRegion id width height pixels stride).succeeds atlas = true) :
    Source width height pixels stride ∧
      ∃ x y, Holds (atlas.after (.setRegion id width height pixels stride)) id
        ⟨x, y, x + width, y + height⟩ fun px py => pixels[(py - y) * stride + (px - x)]? := by
  have houtcome := setRegion_outcome h id width height pixels stride
  simp only [Call.succeeds, SpriteField.succeeds] at hdone
  unfold Atlas.after stateAfter
  dsimp only
  generalize Atlas.setRegion id width height pixels stride atlas = result at *
  cases houtcome with
  | refused error => cases hdone
  | full error => cases hdone
  | emptied hempty => omega
  | @placed i placed b hsource hplaced =>
    obtain ⟨z, hz, -⟩ := h.vacated_region id
    exact ⟨hsource, b.x1, b.y1, hplaced.holds (Array.getElem?_eq_some_iff.mp hz).1⟩

/-! ## The first pixel -/

theorem Packed.white_allocate (h : Packed atlas shelves)
    (hwhite : atlas.image.get? 0 0 = some .white)
    (hplaced : Placed atlas placed shelves width height pixels stride i b) :
    (Atlas.allocate id i width height placed).image.get? 0 0 = some .white := by
  have hnone : ∀ s ∈ shelves ++ growth atlas placed, s.hasCell (0 : Nat) (0 : Nat) = false := by
    intro s hs
    have htop := hplaced.packed.stacked.top_le hs
    rw [Bool.eq_false_iff]
    intro hcell
    simp only [Shelf.hasCell, Bool.and_eq_true, decide_eq_true_eq] at hcell
    omega
  have hfree := hplaced.packed.hasCell_free_of_no_shelf hnone (Array.mem_of_getElem? hplaced.free)
  have hheight := h.stacked.top_le_bottom
  change placed.image.get? 0 0 = _
  rw [hplaced.get?_eq h.width_pos (by omega) hfree, hwhite]

theorem Packed.white_after (h : Packed atlas shelves)
    (hwhite : atlas.image.get? 0 0 = some .white) (call : Call) :
    (atlas.after call).image.get? 0 0 = some .white := by
  cases call with
  | setRegion id width height pixels stride =>
    have houtcome := setRegion_outcome h id width height pixels stride
    unfold Atlas.after stateAfter
    dsimp only
    generalize Atlas.setRegion id width height pixels stride atlas = result at *
    cases houtcome with
    | refused error => exact hwhite
    | full error => exact hwhite
    | emptied hempty => exact hwhite
    | placed hsource hplaced => exact (h.vacated id).white_allocate hwhite hplaced
  | resetRegion id =>
    unfold Atlas.after stateAfter
    dsimp only
    rcases resetRegion_cases id atlas with ⟨error, hrefused⟩ | hdone
    · rw [hrefused]
      exact hwhite
    · rw [hdone]
      exact hwhite

theorem Packed.white_run (h : Packed atlas shelves)
    (hwhite : atlas.image.get? 0 0 = some .white) (calls : List Call) :
    (atlas.run calls).image.get? 0 0 = some .white := by
  unfold Atlas.run
  induction calls generalizing atlas shelves with
  | nil => exact hwhite
  | cons call calls ih => exact ih (h.after call) (h.white_after hwhite call)

/-! ## Calls that leave the image alone -/

theorem image_after_resetRegion (atlas : Atlas) (id : Nat) :
    (atlas.after (.resetRegion id)).image = atlas.image := by
  unfold Atlas.after
  dsimp only
  rcases resetRegion_cases id atlas with ⟨error, hrefused⟩ | hdone
  · rw [stateAfter_of_error hrefused]
  · rw [stateAfter_of_ok hdone]
    rfl

/-- A refusal comes before the image grows, or instead of it. -/
theorem Packed.image_after_of_refused (h : Packed atlas shelves) {call : Call}
    (hrefused : call.succeeds atlas = false) : (atlas.after call).image = atlas.image := by
  cases call with
  | setRegion id width height pixels stride =>
    have houtcome := setRegion_outcome h id width height pixels stride
    simp only [Call.succeeds, SpriteField.succeeds] at hrefused
    unfold Atlas.after stateAfter
    dsimp only
    generalize Atlas.setRegion id width height pixels stride atlas = result at *
    cases houtcome with
    | refused error => rfl
    | full error => rfl
    | emptied hempty => cases hrefused
    | placed hsource hplaced => cases hrefused
  | resetRegion id => exact image_after_resetRegion atlas id

/-! ## Runs -/

/-- The region is where it was in `before`, as large as the block, and shows the block's pixels. -/
def Shows (before after : Atlas) (id width height : Nat) (pixels : Array Color) (stride : Nat) :
    Prop :=
  ∃ (r : Rect) (x y : Nat), before.region? id = some r ∧ after.region? id = some r ∧
    (r.x1 = .ofNat x ∧ x ≤ 2 ^ 24) ∧ (r.y1 = .ofNat y ∧ y ≤ 2 ^ 24) ∧
    r.width = .ofNat width ∧ r.height = .ofNat height ∧
    ∀ i j, i < width → j < height → j * stride + i < pixels.size ∧
      after.image.get? (x + i) (y + j) = pixels[j * stride + i]?

theorem Source.lt_size (h : Source width height pixels stride) {i j : Nat} (hi : i < width)
    (hj : j < height) : j * stride + i < pixels.size := by
  have hrows : j * stride ≤ (height - 1) * stride := Nat.mul_le_mul_right _ (by omega)
  have hsize := h.size_le
  omega

theorem Holds.shows {before : Atlas} {x y : Nat} {colors : Nat → Nat → Option Color}
    (hbefore : Holds before id ⟨x, y, x + width, y + height⟩ colors)
    (h : Holds atlas id ⟨x, y, x + width, y + height⟩
      fun px py => pixels[(py - y) * stride + (px - x)]?)
    (hpacked : Packed atlas shelves) (hsource : Source width height pixels stride) :
    Shows before atlas id width height pixels stride := by
  have hin := h.within.mono hpacked.width_le hpacked.height_le
  refine ⟨_, x, y, hbefore.region, h.region, ⟨rfl, Box.x1_le hin⟩, ⟨rfl, Box.y1_le hin⟩, ?_, ?_, ?_⟩
  · rw [Box.width_rect hin, Nat.add_sub_cancel_left]
  · rw [Box.height_rect hin, Nat.add_sub_cancel_left]
  · intro i j hi hj
    refine ⟨hsource.lt_size hi hj, ?_⟩
    rw [h.pixel (x + i) (y + j) (Nat.le_add_right _ _) (Nat.add_lt_add_left hi _)
      (Nat.le_add_right _ _) (Nat.add_lt_add_left hj _), Nat.add_sub_cancel_left,
      Nat.add_sub_cancel_left]

/-- In every run from a new atlas the first pixel stays white, and a region that was set last shows
the pixels that it was set to, at the place that it got then. -/
theorem run_shows {limits : AtlasLimits} {start : Atlas} (hnew : new limits = .ok start) :
    (∀ calls, (start.run calls).image.get? 0 0 = some .white) ∧
    ∀ (earlier later : List Call) (id width height : Nat) (pixels : Array Color) (stride : Nat),
      0 < width → 0 < height →
      let call := Call.setRegion id width height pixels stride
      call.succeeds (start.run earlier) = true →
      Spares id ((start.run earlier).after call) later →
      Shows ((start.run earlier).after call) (start.run (earlier ++ call :: later)) id width height
        pixels stride := by
  have hpacked := packed_run hnew
  constructor
  · intro calls
    have hwhite : start.image.get? 0 0 = some .white := by
      rw [(new_eq_ok hnew).1]
      rfl
    exact (hpacked []).white_run hwhite calls
  · intro earlier later id width height pixels stride hwidth hheight call hdone hspared
    have hrun : start.run (earlier ++ call :: later) =
        ((start.run earlier).after call).run later := by
      rw [Atlas.run, List.foldl_append]
      rfl
    obtain ⟨hsource, x, y, hset⟩ :=
      holds_after_setRegion (hpacked earlier) hwidth hheight hdone
    have hkept := hset.run ((hpacked earlier).after call) hspared
    rw [hrun]
    exact hset.shows hkept (((hpacked earlier).after call).run later) hsource

/-- A region whose replacement is refused while the image widens for another one. -/
theorem shows_after_refusal :
    let start := within .standard
    let call := Call.setRegion 0 2 1 #[.white, .transparent] 2
    let later : List Call :=
      [.setRegion 1 3 1 (Array.replicate 3 .white) 3, .setRegion 0 2 2 #[.white] 2]
    new .standard = .ok start ∧ call.succeeds start = true ∧ Spares 0 (start.after call) later ∧
      Shows (start.after call) (start.run (call :: later)) 0 2 1 #[.white, .transparent] 2 := by
  intro start call later
  have hnew : new .standard = .ok start := rfl
  have hdone : call.succeeds start = true := by decide +kernel
  have hspared : Spares 0 (start.after call) later := by
    refine ⟨?_, ?_, trivial⟩
    · intro hregion
      cases hregion
    · intro _
      decide +kernel
  exact ⟨hnew, hdone, hspared,
    (run_shows hnew).2 [] later 0 2 1 _ 2 (by decide) (by decide) hdone hspared⟩

end SpriteField.Atlas
