import SpriteField.Proofs.Atlas.Coverage

/-!
# Room in the free list

While a region is set the free list gets longer at up to four places: by the rectangle that the region
gives back, by a new shelf, and by what is left of a rectangle to the right of the block and below it.
One call does so at three of them at most, as a new shelf is exactly as high as the block and leaves
nothing below.

To say so of every moment of a call, the call is measured: it is carried out step by step, and the
greatest length after a step is kept beside the atlas.
-/

namespace SpriteField.Atlas

variable {atlas opened : Atlas} {shelves : List Shelf} {id i width height stride : Nat}
  {pixels : Array Color} {α β : Type}

/-! ## Measured programs -/

/-- An atlas, and the greatest length of its free list so far. -/
structure Measured where
  atlas : Atlas
  peak : Nat

abbrev MeasuredM := EStateM EngineError Measured

/-- Carries out a step, which changes the length of the free list at most once. -/
def measuring (step : AtlasM α) : MeasuredM α := fun m =>
  match step m.atlas with
  | .ok value atlas => .ok value ⟨atlas, max m.peak atlas.free.size⟩
  | .error error atlas => .error error ⟨atlas, max m.peak atlas.free.size⟩

/-- Writes the pixels of a block to the corner of the free rectangle `i`. -/
def writeAt (i width height : Nat) (pixels : Array Color) (stride : Nat) : AtlasM Unit := do
  let atlas ← get
  let corner := atlas.free.getD i .zero
  match atlas.image.blitFrom corner.x1.toNat corner.y1.toNat width height pixels stride with
  | .ok image => set { atlas with image }
  | .error error => throw (.ofImageError error)

def placeMeasured (width height : Nat) (pixels : Array Color) (stride : Nat) : MeasuredM Nat := do
  let i ← measuring (findFree width height)
  measuring (writeAt i width height pixels stride)
  return i

def addFree (rect : Rect) (atlas : Atlas) : Atlas :=
  { atlas with free := pushFree atlas.free rect }

def dropFree (i : Nat) (atlas : Atlas) : Atlas :=
  { atlas with free := swapPop atlas.free i }

/-- Makes `rect` the place of a region, once the free list is as it is to be. -/
def settle (id : Nat) (rect : Rect) (atlas : Atlas) : Atlas :=
  { atlas with
    regions := atlas.regions.setIfInBounds id rect
    counters.regionsPlaced := atlas.counters.regionsPlaced.increment 1
    counters.freeListHighWater :=
      atlas.counters.freeListHighWater.recordMax (UInt64.ofNat atlas.free.size) }

def allocateMeasured (id i width height : Nat) : MeasuredM Unit := do
  let rect := (← get).atlas.free.getD i .zero
  measuring (modify (addFree (strip width height rect)))
  measuring (modify (addFree (remainder height rect)))
  measuring (modify (dropFree i))
  measuring (modify (settle id (taken width height rect)))

/-- Places a block as a region that has just been released from `previous`, when the free list had
`freeSize` elements. -/
def fillMeasured (id width height : Nat) (pixels : Array Color) (stride : Nat) (previous : Rect)
    (freeSize : Nat) : MeasuredM Unit := do
  if width = 0 ∨ height = 0 then pure ()
  else
    let i ← tryCatch (placeMeasured width height pixels stride) fun error => do
      measuring (modify (unrelease id previous freeSize))
      throw error
    allocateMeasured id i width height

def setRegionMeasured (id width height : Nat) (pixels : Array Color) (stride : Nat) :
    MeasuredM Unit := do
  measuring (checkSource width height pixels stride)
  measuring (ensureRegion id)
  let previous := (← get).atlas.regionAt id
  let freeSize := (← get).atlas.free.size
  measuring (modify (release id))
  fillMeasured id width height pixels stride previous freeSize

/-! ## What is measured -/

/-- The outcome for the atlas alone. -/
def unmeasured : EStateM.Result EngineError Measured α → EStateM.Result EngineError Atlas α
  | .ok value m => .ok value m.atlas
  | .error error m => .error error m.atlas

/-- The first program does to the atlas what the second one does. -/
def Measures (measured : MeasuredM α) (program : AtlasM α) : Prop :=
  ∀ m, unmeasured (measured m) = program m.atlas

theorem measures_measuring (step : AtlasM α) : Measures (measuring step) step := by
  intro m
  unfold measuring
  cases step m.atlas with
  | ok value atlas => rfl
  | error error atlas => rfl

theorem measures_pure (value : α) : Measures (pure value) (pure value) :=
  fun _ => rfl

theorem measures_throw (error : EngineError) :
    Measures (throw error : MeasuredM α) (throw error) :=
  fun _ => rfl

theorem Measures.bind {measured : MeasuredM α} {program : AtlasM α} {next : α → MeasuredM β}
    {next' : α → AtlasM β} (h : Measures measured program)
    (hnext : ∀ value, Measures (next value) (next' value)) :
    Measures (measured >>= next) (program >>= next') := by
  intro m
  have hprogram := h m
  cases hrun : measured m with
  | ok value m' =>
    rw [hrun] at hprogram
    rw [bind_of_ok hrun, bind_of_ok hprogram.symm]
    exact hnext value m'
  | error error m' =>
    rw [hrun] at hprogram
    rw [bind_of_error hrun, bind_of_error hprogram.symm]
    rfl

theorem measures_get_bind {next : Measured → MeasuredM α} {next' : Atlas → AtlasM α}
    (h : ∀ m, Measures (next m) (next' m.atlas)) : Measures (get >>= next) (get >>= next') :=
  fun m => h m m

theorem Measures.tryCatch {measured : MeasuredM α} {program : AtlasM α}
    {handler : EngineError → MeasuredM α} {handler' : EngineError → AtlasM α}
    (h : Measures measured program) (hhandler : ∀ error, Measures (handler error) (handler' error)) :
    Measures (tryCatch measured handler) (tryCatch program handler') := by
  intro m
  have hprogram := h m
  cases hrun : measured m with
  | ok value m' =>
    rw [hrun] at hprogram
    rw [tryCatch_of_ok hrun, tryCatch_of_ok hprogram.symm]
    rfl
  | error error m' =>
    rw [hrun] at hprogram
    rw [tryCatch_of_error hrun, tryCatch_of_error hprogram.symm]
    exact hhandler error m'

theorem place_eq_bind : place width height pixels stride =
    findFree width height >>= fun i => do
      writeAt i width height pixels stride
      return i := by
  unfold place writeAt
  congr 1
  funext i atlas
  rw [bind_assoc, get_bind, get_bind]
  cases hblit : atlas.image.blitFrom (atlas.free.getD i .zero).x1.toNat
      (atlas.free.getD i .zero).y1.toNat width height pixels stride with
  | ok image => simp only [hblit]
  | error error => simp only [hblit]

theorem measures_place (width height : Nat) (pixels : Array Color) (stride : Nat) :
    Measures (placeMeasured width height pixels stride) (place width height pixels stride) := by
  rw [place_eq_bind]
  refine (measures_measuring _).bind fun i => ?_
  refine (measures_measuring _).bind fun _ => ?_
  exact measures_pure i

theorem measures_allocate (id i width height : Nat) :
    Measures (allocateMeasured id i width height) (modify (allocate id i width height)) := by
  intro m
  rfl

theorem measures_setRegion (id width height : Nat) (pixels : Array Color) (stride : Nat) :
    Measures (setRegionMeasured id width height pixels stride)
      (setRegion id width height pixels stride) := by
  refine (measures_measuring _).bind fun _ => ?_
  refine (measures_measuring _).bind fun _ => ?_
  refine measures_get_bind fun m => ?_
  refine measures_get_bind fun m' => ?_
  refine (measures_measuring _).bind fun _ => ?_
  unfold fillMeasured
  split
  · exact measures_pure _
  · refine Measures.bind ?_ fun i => measures_allocate id i width height
    refine (measures_place width height pixels stride).tryCatch fun error => ?_
    exact (measures_measuring _).bind fun _ => measures_throw error

/-! ## Lengths -/

theorem size_free_release_le (id : Nat) (atlas : Atlas) :
    (release id atlas).free.size ≤ atlas.free.size + 1 :=
  size_pushFree_le atlas.free _

theorem size_free_unrelease_le (id : Nat) (previous : Rect) (freeSize : Nat) (atlas : Atlas) :
    (unrelease id previous freeSize atlas).free.size ≤ atlas.free.size := by
  unfold unrelease
  dsimp only
  split
  · rw [Array.eraseIdxIfInBounds]
    split
    · rw [Array.size_eraseIdx]
      omega
    · exact le_rfl
  · exact le_rfl

/-- A free list from which element `i` is about to be cut.  It is one longer than before only if
nothing will be left of the element below the block. -/
structure Cuttable (size height i : Nat) (free : Array Rect) : Prop where
  lt : i < free.size
  size_le : free.size ≤ size ∨
    (free.size ≤ size + 1 ∧ (remainder height (free.getD i .zero)).hasArea = false)

namespace Cuttable

variable {size : Nat} {free : Array Rect} (h : Cuttable size height i free)
include h

theorem mono {size' : Nat} (hle : size ≤ size') : Cuttable size' height i free :=
  ⟨h.lt, h.size_le.imp (·.trans hle) (.imp_left (·.trans (Nat.succ_le_succ hle)))⟩

theorem size_strip_le (width : Nat) :
    (pushFree free (strip width height (free.getD i .zero))).size ≤ size + 2 := by
  have hstrip := size_pushFree_le free (strip width height (free.getD i .zero))
  rcases h.size_le with hle | ⟨hle, -⟩ <;> omega

theorem size_remainder_le (width : Nat) :
    (pushFree (pushFree free (strip width height (free.getD i .zero)))
      (remainder height (free.getD i .zero))).size ≤ size + 2 := by
  have hstrip := size_pushFree_le free (strip width height (free.getD i .zero))
  rcases h.size_le with hle | ⟨hle, hempty⟩
  · have hremainder := size_pushFree_le
      (pushFree free (strip width height (free.getD i .zero)))
      (remainder height (free.getD i .zero))
    omega
  · rw [pushFree_of_not_hasArea _ hempty]
    omega

theorem size_cut_le (width : Nat) : (cut i width height free).size ≤ size + 1 := by
  have hlt : i < (pushFree (pushFree free (strip width height (free.getD i .zero)))
      (remainder height (free.getD i .zero))).size :=
    (h.lt.trans_le (size_le_pushFree _ _)).trans_le (size_le_pushFree _ _)
  have hswap := size_swapPop hlt
  have hremainder := h.size_remainder_le width
  rw [cut]
  omega

end Cuttable

theorem getD_push (free : Array Rect) (rect : Rect) :
    (free.push rect).getD free.size .zero = rect := by
  rw [Array.getD_eq_getD_getElem?, Array.getElem?_push, if_pos rfl]
  rfl

theorem grow_ok (h : grow width height atlas = .ok i opened) :
    i = atlas.free.size ∧
      (max atlas.image.width width ≤ atlas.limits.maxWidth ∧
        atlas.image.height + height ≤ atlas.limits.maxHeight) ∧
      opened.free = atlas.free.push (Box.mk 0 atlas.image.height (max atlas.image.width width)
        (atlas.image.height + height)).rect := by
  unfold grow at h
  rw [get_bind] at h
  split at h
  next => cases h
  next hfull =>
    rw [not_or, Nat.not_lt, Nat.not_lt] at hfull
    split at h
    next => cases h
    next => cases h
    next =>
      cases h
      exact ⟨rfl, hfull, rfl⟩

/-- A new shelf is as high as the block that it is made for. -/
theorem Packed.hasArea_remainder_shelf (h : Packed atlas shelves)
    (hmaxWidth : max atlas.image.width width ≤ atlas.limits.maxWidth)
    (hmaxHeight : atlas.image.height + height ≤ atlas.limits.maxHeight) :
    (remainder height (Box.mk 0 atlas.image.height (max atlas.image.width width)
      (atlas.image.height + height)).rect).hasArea = false := by
  have hlimits := h.limits
  have hin : (Box.mk 0 atlas.image.height (max atlas.image.width width)
      (atlas.image.height + height)).Within (2 ^ 24) (2 ^ 24) :=
    ⟨Nat.zero_le _, hmaxWidth.trans hlimits.1, Nat.le_add_right _ _, hmaxHeight.trans hlimits.2⟩
  rw [Box.remainder_rect le_rfl hin, Bool.eq_false_iff, ne_eq,
    Box.hasArea_rect (Box.within_remainder le_rfl hin)]
  rintro ⟨-, hrows⟩
  exact hrows.false

theorem Opens.cuttable (h : Packed atlas shelves) (hopens : Opens width height atlas i opened) :
    Cuttable atlas.free.size height i opened.free := by
  cases hopens with
  | hit hi =>
    obtain ⟨hlt, -, -⟩ := Array.findIdx?_eq_some_iff_getElem.mp hi
    exact ⟨hlt, Or.inl le_rfl⟩
  | @grown image hnone hmaxWidth hmaxHeight himage =>
    obtain ⟨hwidth, hheight, -⟩ := Image.resize_ok himage
    have hfree : (atlas.grown image).free =
        atlas.free.push (Box.mk 0 atlas.image.height image.width image.height).rect := rfl
    rw [hfree, hwidth, hheight]
    refine ⟨by simp, Or.inr ⟨by simp, ?_⟩⟩
    rw [getD_push]
    exact h.hasArea_remainder_shelf hmaxWidth hmaxHeight

theorem free_writeAt (i width height : Nat) (pixels : Array Color) (stride : Nat)
    (atlas : Atlas) :
    (stateAfter (writeAt i width height pixels stride) atlas).free = atlas.free := by
  unfold stateAfter writeAt
  rw [get_bind]
  cases atlas.image.blitFrom (atlas.free.getD i .zero).x1.toNat
      (atlas.free.getD i .zero).y1.toNat width height pixels stride with
  | ok image => rfl
  | error error => rfl

/-! ## One call -/

theorem measuring_of_ok {step : AtlasM α} {m : Measured} {value : α}
    (h : step m.atlas = .ok value atlas) :
    measuring step m = .ok value ⟨atlas, max m.peak atlas.free.size⟩ := by
  rw [measuring, h]

theorem measuring_of_error {step : AtlasM α} {m : Measured} {error : EngineError}
    (h : step m.atlas = .error error atlas) :
    measuring step m = .error error ⟨atlas, max m.peak atlas.free.size⟩ := by
  rw [measuring, h]

theorem measuring_modify_bind (change : Atlas → Atlas) (next : PUnit → MeasuredM α) (m : Measured) :
    (measuring (modify change) >>= next) m =
      next ⟨⟩ ⟨change m.atlas, max m.peak (change m.atlas).free.size⟩ :=
  rfl

theorem placeMeasured_cases {m : Measured} (h : Packed m.atlas shelves) (width height : Nat)
    (pixels : Array Color) (stride : Nat) :
    (∃ i m', placeMeasured width height pixels stride m = .ok i m' ∧
      m'.peak ≤ max m.peak (m.atlas.free.size + 1) ∧
      Cuttable m.atlas.free.size height i m'.atlas.free) ∨
    ∃ error m', placeMeasured width height pixels stride m = .error error m' ∧
      m'.peak ≤ max m.peak (m.atlas.free.size + 1) ∧
      m'.atlas.free.size ≤ m.atlas.free.size + 1 := by
  unfold placeMeasured
  rcases findFree_cases h width height with ⟨i, opened, hfind, hopens⟩ | ⟨-, -, hrefused⟩
  · have hcuttable := hopens.cuttable h
    have hsize : opened.free.size ≤ m.atlas.free.size + 1 := by
      rcases hcuttable.size_le with hle | ⟨hle, -⟩ <;> omega
    rw [bind_of_ok (measuring_of_ok hfind)]
    -- Written or refused, the pixels leave the list as the search has left it.
    have hfree := free_writeAt i width height pixels stride opened
    cases hwrite : writeAt i width height pixels stride opened with
    | ok value placed =>
      rw [stateAfter_of_ok hwrite] at hfree
      refine Or.inl ⟨i, _, bind_of_ok (measuring_of_ok hwrite), ?_, ?_⟩
      · dsimp only
        rw [hfree]
        omega
      · dsimp only
        rwa [hfree]
    | error error placed =>
      rw [stateAfter_of_error hwrite] at hfree
      refine Or.inr ⟨error, _, bind_of_error (measuring_of_error hwrite), ?_, ?_⟩
      · dsimp only
        rw [hfree]
        omega
      · dsimp only
        rwa [hfree]
  · refine Or.inr ⟨_, _, bind_of_error (measuring_of_error hrefused), ?_, ?_⟩
    · dsimp only
      omega
    · dsimp only
      omega

/-- The last step leaves the free list alone. -/
theorem allocateMeasured_eq (id i width height : Nat) (m : Measured) :
    allocateMeasured id i width height m =
      let rect := m.atlas.free.getD i .zero
      let withStrip := pushFree m.atlas.free (strip width height rect)
      let withBoth := pushFree withStrip (remainder height rect)
      let left := cut i width height m.atlas.free
      .ok ⟨⟩ ⟨allocate id i width height m.atlas,
        max (max (max (max m.peak withStrip.size) withBoth.size) left.size) left.size⟩ := by
  unfold allocateMeasured
  rw [get_bind, measuring_modify_bind, measuring_modify_bind, measuring_modify_bind]
  rfl

/-- The state at the end of a call that began with `size` free rectangles. -/
structure Reserved (size : Nat) (m : Measured) : Prop where
  peak_le : m.peak ≤ size + 3
  size_le : m.atlas.free.size ≤ size + 2

theorem Cuttable.reserved {m : Measured} {size : Nat}
    (h : Cuttable (size + 1) height i m.atlas.free) (hpeak : m.peak ≤ size + 2) (id width : Nat) :
    Reserved size (stateAfter (allocateMeasured id i width height) m) := by
  have hstrip := h.size_strip_le width
  have hremainder := h.size_remainder_le width
  have hcut := h.size_cut_le width
  rw [stateAfter_of_ok (allocateMeasured_eq id i width height m)]
  constructor
  · dsimp only
    omega
  · exact hcut

theorem reserved_fillMeasured {m : Measured} {size : Nat} (h : Packed m.atlas shelves)
    (hsize : m.atlas.free.size ≤ size + 1) (hpeak : m.peak ≤ size + 1) (id width height : Nat)
    (pixels : Array Color) (stride : Nat) (previous : Rect) (freeSize : Nat) :
    Reserved size
      (stateAfter (fillMeasured id width height pixels stride previous freeSize) m) := by
  unfold fillMeasured
  split
  · exact ⟨hpeak.trans (by omega), hsize.trans (by omega)⟩
  · rcases placeMeasured_cases h width height pixels stride with
      ⟨i, m', hplace, hpeak', hcuttable⟩ | ⟨error, m', hrefused, hpeak', hsize'⟩
    · unfold stateAfter
      rw [bind_of_ok (tryCatch_of_ok hplace)]
      exact (hcuttable.mono hsize).reserved (by omega) id width
    · -- The handler takes the release back, but a shelf that has been added stays.
      have hsize'' := size_free_unrelease_le id previous freeSize m'.atlas
      unfold stateAfter
      rw [bind_of_error ((tryCatch_of_error hrefused).trans (measuring_modify_bind _ _ _))]
      constructor
      · dsimp only
        omega
      · dsimp only
        omega

theorem Packed.reserved_setRegion (h : Packed atlas shelves) (id width height : Nat)
    (pixels : Array Color) (stride : Nat) :
    Reserved atlas.free.size
      (stateAfter (setRegionMeasured id width height pixels stride) ⟨atlas, atlas.free.size⟩) := by
  unfold stateAfter setRegionMeasured
  rcases checkSource_cases width height pixels stride atlas with
    ⟨error, hrefused⟩ | ⟨hchecked, -⟩
  · rw [bind_of_error (measuring_of_error hrefused)]
    constructor <;> simp
  rw [bind_of_ok (measuring_of_ok hchecked)]
  by_cases hid : maxRegionId < id
  · rw [bind_of_error (measuring_of_error (ensureRegion_error hid atlas))]
    constructor <;> simp
  have hsize : (atlas.vacated id).free.size ≤ atlas.free.size + 1 :=
    size_free_release_le id (atlas.extend id)
  have hextend : (atlas.extend id).free.size = atlas.free.size := rfl
  rw [bind_of_ok (measuring_of_ok (ensureRegion_ok (Nat.not_lt.mp hid) atlas)), get_bind, get_bind,
    measuring_modify_bind]
  refine reserved_fillMeasured (h.vacated id) hsize ?_ id width height pixels stride _ _
  change max _ (atlas.vacated id).free.size ≤ _
  dsimp only
  omega

/-- Most free rectangles that one call holds beyond those that it begins with. -/
def freeListReserve : Nat := 3

/-- What is reserved for a call to set a region suffices.  The program that is measured does what the
call does, starting from the length that the free list has. -/
structure ReserveSuffices (atlas : Atlas) (id width height : Nat) (pixels : Array Color)
    (stride : Nat) : Prop where
  measured :
    unmeasured (setRegionMeasured id width height pixels stride ⟨atlas, atlas.free.size⟩) =
      setRegion id width height pixels stride atlas
  peak_le :
    (stateAfter (setRegionMeasured id width height pixels stride) ⟨atlas, atlas.free.size⟩).peak ≤
      atlas.free.size + freeListReserve
  size_le :
    (stateAfter (setRegion id width height pixels stride) atlas).free.size ≤ atlas.free.size + 2
  nothing_below : ∀ i opened, grow width height (atlas.vacated id) = .ok i opened →
    (remainder height (opened.free.getD i .zero)).hasArea = false

theorem stateAfter_unmeasured {measured : MeasuredM α} {program : AtlasM α}
    (h : Measures measured program) (m : Measured) :
    stateAfter program m.atlas = (stateAfter measured m).atlas := by
  unfold stateAfter
  rw [← h m]
  cases measured m with
  | ok value m' => rfl
  | error error m' => rfl

theorem Packed.reserveSuffices (h : Packed atlas shelves) (id width height : Nat)
    (pixels : Array Color) (stride : Nat) :
    ReserveSuffices atlas id width height pixels stride := by
  have hmeasures := measures_setRegion id width height pixels stride
  have hreserved := h.reserved_setRegion id width height pixels stride
  constructor
  · exact hmeasures _
  · exact hreserved.peak_le
  · rw [stateAfter_unmeasured hmeasures ⟨atlas, atlas.free.size⟩]
    exact hreserved.size_le
  · intro i opened hgrow
    obtain ⟨rfl, ⟨hmaxWidth, hmaxHeight⟩, hfree⟩ := grow_ok hgrow
    rw [hfree, getD_push]
    exact (h.vacated id).hasArea_remainder_shelf hmaxWidth hmaxHeight

/-- In every state that calls reach from a new atlas, the reserve suffices for every call that sets a
region. -/
theorem run_reserveSuffices {limits : AtlasLimits} {start : Atlas} (hnew : new limits = .ok start)
    (calls : List Call) (id width height : Nat) (pixels : Array Color) (stride : Nat) :
    ReserveSuffices (start.run calls) id width height pixels stride :=
  (packed_run hnew calls).reserveSuffices id width height pixels stride

/-- A region that gives way to a smaller one. -/
theorem reserveSuffices_on_replacement :
    new .standard = .ok (within .standard) ∧
      ReserveSuffices
        ((within .standard).run [.setRegion 0 4 4 (Array.replicate 16 .white) 4])
        0 2 3 (Array.replicate 6 .white) 2 :=
  have hnew : new .standard = .ok (within .standard) := rfl
  ⟨hnew, run_reserveSuffices hnew _ 0 2 3 _ 2⟩

/-- The three are needed: the released region and both leftovers are in the list at once. -/
example :
    let atlas := (within .standard).run [.setRegion 0 4 4 (Array.replicate 16 .white) 4]
    atlas.free.size = 0 ∧
      (stateAfter (setRegionMeasured 0 2 3 (Array.replicate 6 .white) 2) ⟨atlas, 0⟩).peak =
        freeListReserve := by
  decide +kernel

end SpriteField.Atlas
