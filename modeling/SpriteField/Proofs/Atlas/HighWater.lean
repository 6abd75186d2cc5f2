import SpriteField.Proofs.Atlas.Refusals

/-!
# The length of the free list

A placement records the length that it leaves the free list with, and the mark keeps the largest of
these lengths.  A region that is made empty without a placement adds its rectangle to the list and
records nothing.  So the mark is no smaller than the length after any placement, but by the next one
the list can be longer by the regions made empty in between.
-/

namespace SpriteField.Atlas

variable {atlas opened placed : Atlas} {shelves : List Shelf} {calls : List Call} {call : Call}
  {id i width height stride : Nat} {pixels : Array Color} {b : Box}

/-- The largest length of the free list on record. -/
def highWater (atlas : Atlas) : Nat :=
  atlas.counters.freeListHighWater.value.toNat

/-! ## Lengths fit into the counter -/

theorem Packed.countP_free_le_one (h : Packed atlas shelves) (ci cj : Int) :
    atlas.free.countP (·.hasCell ci cj) ≤ 1 := by
  have htiles := h.tiles ci cj
  rw [h.stacked.countP_hasCell] at htiles
  split at htiles
  · omega
  · omega

/-- No two free rectangles have the same corner, so there are no more of them than cells. -/
theorem Packed.size_free_le (h : Packed atlas shelves) :
    atlas.free.size ≤ atlas.image.width * atlas.image.height := by
  have hcorner : ∀ r ∈ atlas.free.toList, r.x1.toNat < atlas.image.width ∧
      r.y1.toNat < atlas.image.height ∧ r.hasCell r.x1.toNat r.y1.toNat = true := by
    intro r hr
    rw [Array.mem_toList_iff] at hr
    obtain ⟨b, rfl, hin⟩ := h.free r hr
    have hlarge := hin.mono h.width_le h.height_le
    obtain ⟨hx, hy⟩ := (Box.hasArea_rect hlarge).mp (h.freeArea _ hr)
    have hright := hin.right_le
    have hbottom := hin.bottom_le
    rw [Box.hasCell_rect hlarge]
    simp only [Box.rect, Binary32.toNat_ofNat (Box.x1_le hlarge),
      Binary32.toNat_ofNat (Box.y1_le hlarge)]
    omega
  set corners := atlas.free.toList.map fun r => (r.x1.toNat, r.y1.toNat) with hcorners
  have hnodup : corners.Nodup := by
    rw [List.nodup_iff_count_le_one]
    rintro ⟨ci, cj⟩
    calc corners.count (ci, cj)
        = atlas.free.toList.countP fun r => (r.x1.toNat, r.y1.toNat) == (ci, cj) := by
          rw [hcorners, List.count, List.countP_map]
          rfl
      _ ≤ atlas.free.toList.countP (·.hasCell ci cj) := by
          apply List.countP_mono_left
          intro r hr heq
          obtain ⟨rfl, rfl⟩ := Prod.mk.inj (beq_iff_eq.mp heq)
          exact (hcorner r hr).2.2
      _ ≤ 1 := by
          rw [Array.countP_toList]
          exact h.countP_free_le_one ci cj
  have hsubset : corners.toFinset ⊆
      Finset.range atlas.image.width ×ˢ Finset.range atlas.image.height := by
    intro c hc
    obtain ⟨r, hr, rfl⟩ := List.mem_map.mp (List.mem_toFinset.mp hc)
    rw [Finset.mem_product, Finset.mem_range, Finset.mem_range]
    exact ⟨(hcorner r hr).1, (hcorner r hr).2.1⟩
  have hcard := Finset.card_le_card hsubset
  rwa [List.toFinset_card_of_nodup hnodup, hcorners, List.length_map, Array.length_toList,
    Finset.card_product, Finset.card_range, Finset.card_range] at hcard

theorem Packed.toNat_size_free (h : Packed atlas shelves) :
    (UInt64.ofNat atlas.free.size).toNat = atlas.free.size := by
  apply UInt64.toNat_ofNat_of_lt'
  calc atlas.free.size ≤ atlas.image.width * atlas.image.height := h.size_free_le
    _ ≤ 2 ^ 24 * 2 ^ 24 := Nat.mul_le_mul h.width_le h.height_le
    _ < UInt64.size := by decide

/-! ## One call -/

/-- The call sets a region to a block that has pixels. -/
def Call.hasBlock : Call → Bool
  | .setRegion _ width height _ _ => width != 0 && height != 0
  | .resetRegion _ => false

/-- The call gives a region a place. -/
def Call.places (call : Call) (atlas : Atlas) : Bool :=
  call.hasBlock && call.succeeds atlas

/-- The call makes a region empty that held pixels. -/
def Call.empties (call : Call) (atlas : Atlas) : Bool :=
  !call.hasBlock && call.succeeds atlas && (atlas.region? call.region).any (·.hasArea)

theorem size_free_vacated (atlas : Atlas) (id : Nat) :
    (atlas.vacated id).free.size =
      atlas.free.size + ((atlas.region? id).any (·.hasArea)).toNat := by
  rw [free_vacated, pushFree]
  cases atlas.region? id with
  | none => rfl
  | some r => cases harea : r.hasArea <;> simp [harea]

theorem Placed.highWater_allocate
    (hplaced : Placed atlas placed shelves width height pixels stride i b)
    {shelves' : List Shelf} (hpacked : Packed (allocate id i width height placed) shelves') :
    (allocate id i width height placed).highWater =
      max atlas.highWater (allocate id i width height placed).free.size := by
  have hmark : placed.counters.freeListHighWater = atlas.counters.freeListHighWater := by
    obtain ⟨opened, image, hopens, rfl, -⟩ := hplaced.opens
    cases hopens with
    | hit => rfl
    | grown => rfl
  change (max placed.counters.freeListHighWater.value
    (UInt64.ofNat (allocate id i width height placed).free.size)).toNat = _
  rw [UInt64.toNat_max, hpacked.toNat_size_free, hmark]
  rfl

/-- What a call does to the mark and to the length of the free list. -/
inductive Tracks (call : Call) (before after : Atlas) : Prop
  | placed (hplaces : call.places before = true)
    (hmark : after.highWater = max before.highWater after.free.size)
  | notPlaced (hplaces : call.places before = false)
    (hmark : after.highWater = before.highWater)
    (hsize : after.free.size = before.free.size + (call.empties before).toNat)

theorem Tracks.of_refused (hrefused : call.succeeds atlas = false) {after : Atlas}
    (hmark : after.highWater = atlas.highWater) (hsize : after.free.size = atlas.free.size) :
    Tracks call atlas after := by
  refine .notPlaced ?_ hmark ?_
  · rw [Call.places, hrefused, Bool.and_false]
  · rw [Call.empties, hrefused, Bool.and_false, Bool.false_and]
    exact hsize

theorem Tracks.of_vacated (hblock : call.hasBlock = false) (hdone : call.succeeds atlas = true) :
    Tracks call atlas (atlas.vacated call.region) := by
  refine .notPlaced ?_ rfl ?_
  · rw [Call.places, hblock, Bool.false_and]
  · rw [size_free_vacated, Call.empties, hblock, hdone]
    rfl

theorem Packed.tracks_after (h : Packed atlas shelves) (call : Call) :
    Tracks call atlas (atlas.after call) := by
  have hpacked := h.after call
  cases call with
  | setRegion id width height pixels stride =>
    have houtcome := setRegion_outcome h id width height pixels stride
    unfold Atlas.after at hpacked ⊢
    dsimp only at hpacked ⊢
    generalize hrun : setRegion id width height pixels stride atlas = result at houtcome
    cases houtcome with
    | refused error =>
      rw [stateAfter_of_error hrun]
      refine .of_refused ?_ rfl rfl
      exact succeeds_of_error hrun
    | full error hid =>
      rw [stateAfter_of_error hrun]
      refine .of_refused ?_ rfl rfl
      exact succeeds_of_error hrun
    | emptied hempty hid =>
      rw [stateAfter_of_ok hrun]
      have hblock : (width != 0 && height != 0) = false := by
        rcases hempty with rfl | rfl <;> simp
      exact .of_vacated hblock (succeeds_of_ok hrun)
    | placed hsource hplaced hid =>
      rw [stateAfter_of_ok hrun] at hpacked ⊢
      have hblock : (width != 0 && height != 0) = true := by
        simp [hsource.width_pos.ne', hsource.height_pos.ne']
      refine .placed ?_ (hplaced.highWater_allocate hpacked)
      rw [Call.places, Call.hasBlock, hblock, Bool.true_and]
      exact succeeds_of_ok hrun
  | resetRegion id =>
    unfold Atlas.after
    dsimp only
    rcases resetRegion_cases id atlas with ⟨error, hrefused⟩ | hdone
    · rw [stateAfter_of_error hrefused]
      refine .of_refused ?_ rfl rfl
      exact succeeds_of_error hrefused
    · rw [stateAfter_of_ok hdone]
      exact .of_vacated rfl (succeeds_of_ok hdone)

/-! ## Runs -/

/-- The lengths of the free list right after the calls that give a region a place. -/
def placedLengths (atlas : Atlas) : List Call → List Nat
  | [] => []
  | call :: calls =>
    if call.places atlas then
      (atlas.after call).free.size :: (atlas.after call).placedLengths calls
    else (atlas.after call).placedLengths calls

/-- The number of regions made empty since the last call that gives a region a place, `count` of
them before the list begins. -/
def emptiedSince (atlas : Atlas) (count : Nat) : List Call → Nat
  | [] => count
  | call :: calls =>
    (atlas.after call).emptiedSince
      (if call.places atlas then 0 else count + (call.empties atlas).toNat) calls

theorem Packed.highWater_run_eq (h : Packed atlas shelves) (calls : List Call) :
    (atlas.run calls).highWater = (atlas.placedLengths calls).foldl max atlas.highWater := by
  unfold Atlas.run
  induction calls generalizing atlas shelves with
  | nil => rfl
  | cons call calls ih =>
    rw [List.foldl_cons, ih (h.after call), placedLengths]
    cases h.tracks_after call with
    | placed hplaces hmark => rw [if_pos hplaces, List.foldl_cons, hmark]
    | notPlaced hplaces hmark hsize => rw [if_neg (by simp [hplaces]), hmark]

theorem Packed.size_free_run (h : Packed atlas shelves) (calls : List Call) {length count : Nat}
    (hsize : atlas.free.size = length + count) :
    (atlas.run calls).free.size =
      (atlas.placedLengths calls).getLastD length + atlas.emptiedSince count calls := by
  unfold Atlas.run
  induction calls generalizing atlas shelves length count with
  | nil => exact hsize
  | cons call calls ih =>
    rw [List.foldl_cons, placedLengths, emptiedSince]
    cases h.tracks_after call with
    | placed hplaces hmark =>
      rw [if_pos hplaces, if_pos hplaces, List.getLastD_cons]
      exact ih (h.after call) rfl
    | notPlaced hplaces hmark hsize' =>
      rw [if_neg (by simp [hplaces]), if_neg (by simp [hplaces])]
      exact ih (h.after call) (by omega)

theorem getLastD_le_foldl_max (lengths : List Nat) : lengths.getLastD 0 ≤ lengths.foldl max 0 := by
  rcases List.eq_nil_or_concat lengths with rfl | ⟨earlier, length, rfl⟩
  · exact le_rfl
  · simp

/-- The mark is the largest length that a placement has left the free list with.  It is exceeded by
no more than the number of regions made empty since the last placement. -/
theorem run_highWater {limits : AtlasLimits} {start : Atlas} (hnew : new limits = .ok start)
    (calls : List Call) :
    let marked := start.resetCounters
    let last := marked.run calls
    last.highWater = (marked.placedLengths calls).foldl max 0 ∧
      last.free.size =
        (marked.placedLengths calls).getLastD 0 + marked.emptiedSince 0 calls ∧
      last.free.size ≤ last.highWater + marked.emptiedSince 0 calls := by
  intro marked last
  obtain ⟨rfl, hvalid⟩ := new_eq_ok hnew
  have h : Packed marked [] := packed_within hvalid
  have hmark : last.highWater = (marked.placedLengths calls).foldl max 0 :=
    h.highWater_run_eq calls
  have hsize : last.free.size =
      (marked.placedLengths calls).getLastD 0 + marked.emptiedSince 0 calls :=
    h.size_free_run calls rfl
  refine ⟨hmark, hsize, ?_⟩
  have hle := getLastD_le_foldl_max (marked.placedLengths calls)
  omega

/-- A region gives way to a smaller one and is made empty: the mark counts two free rectangles, and
there are three. -/
theorem highWater_after_split :
    new .standard = .ok (within .standard) ∧
      let calls : List Call :=
        [.setRegion 0 4 4 (Array.replicate 16 .white) 4,
          .setRegion 0 2 3 (Array.replicate 6 .white) 2, .resetRegion 0]
      let marked := (within .standard).resetCounters
      let last := marked.run calls
      last.highWater = (marked.placedLengths calls).foldl max 0 ∧
        last.free.size =
          (marked.placedLengths calls).getLastD 0 + marked.emptiedSince 0 calls ∧
        last.free.size ≤ last.highWater + marked.emptiedSince 0 calls :=
  have hnew : new .standard = .ok (within .standard) := rfl
  ⟨hnew, run_highWater hnew _⟩

/-- A region that takes a whole shelf leaves the free list empty.  When it is made empty, its
rectangle is free again, and the mark still says that there never was one. -/
theorem highWater_lt_size_free :
    new .standard = .ok (within .standard) ∧
      let last := (within .standard).resetCounters.run
        [.setRegion 0 1 1 #[.white] 1, .resetRegion 0]
      last.highWater < last.free.size :=
  ⟨rfl, by decide +kernel⟩

end SpriteField.Atlas
