import SpriteField.Proofs.Atlas.Refusals

/-!
# Replacing regions

A region is released before a free rectangle is looked for.  So a block that is no larger than the
region in whose place it is put always finds room, there or in a free rectangle before it, and the
image does not grow.  A block of the same size leaves every live region at its size, wherever it
goes, and any number of such rewrites keeps the image at its size.
-/

namespace SpriteField

/-- The width and the height of the rectangle are exactly these numbers. -/
def Rect.measures (r : Rect) (width height : Nat) : Bool :=
  r.width.units = width * Binary32.unitsPerOne && r.height.units = height * Binary32.unitsPerOne

namespace Atlas

variable {atlas : Atlas} {shelves : List Shelf} {calls : List Call} {call : Call}
  {id width height stride liveWidth liveHeight : Nat} {pixels : Array Color}

/-- The region holds pixels, in so many columns and rows. -/
def isLive (atlas : Atlas) (id width height : Nat) : Bool :=
  (atlas.region? id).any fun r => r.hasArea && r.measures width height

/-- The array holds the pixels of a block whose rows lie `stride` pixels apart. -/
def HoldsBlock (pixels : Array Color) (stride width height : Nat) : Prop :=
  width = 0 ∨ height = 0 ∨ width ≤ stride ∧ (height - 1) * stride + width ≤ pixels.size

/-- The call puts a block in the place of a live region that is at least as large. -/
inductive Call.Replaces (atlas : Atlas) : Call → Prop
  | setRegion {id width height liveWidth liveHeight : Nat} {pixels : Array Color} {stride : Nat}
    (hsource : HoldsBlock pixels stride width height)
    (hlive : atlas.isLive id liveWidth liveHeight = true)
    (hwidth : width ≤ liveWidth) (hheight : height ≤ liveHeight) :
    Call.Replaces atlas (.setRegion id width height pixels stride)

/-- The call puts a block in the place of a live region of the same size. -/
inductive Call.Rewrites (atlas : Atlas) : Call → Prop
  | setRegion {id width height : Nat} {pixels : Array Color} {stride : Nat}
    (hsource : HoldsBlock pixels stride width height)
    (hlive : atlas.isLive id width height = true) :
    Call.Rewrites atlas (.setRegion id width height pixels stride)

theorem Call.Rewrites.replaces (h : call.Rewrites atlas) : call.Replaces atlas := by
  cases h with
  | setRegion hsource hlive => exact .setRegion hsource hlive le_rfl le_rfl

/-- Every call of the list replaces a region when its turn comes. -/
inductive EachReplaces : Atlas → List Call → Prop
  | nil (atlas : Atlas) : EachReplaces atlas []
  | cons {atlas : Atlas} {call : Call} {calls : List Call} (hcall : call.Replaces atlas)
    (hcalls : EachReplaces (atlas.after call) calls) : EachReplaces atlas (call :: calls)

/-! ## Live regions -/

theorem isLive_iff : atlas.isLive id width height = true ↔
    ∃ r, atlas.region? id = some r ∧ r.hasArea = true ∧ r.measures width height = true := by
  simp [isLive, Option.any_eq_true]

theorem measures_rect {b : Box} (h : b.Within (2 ^ 24) (2 ^ 24)) :
    b.rect.measures width height = true ↔ b.x2 = b.x1 + width ∧ b.y2 = b.y1 + height := by
  have hin := h
  obtain ⟨hleft, hright, htop, hbottom⟩ := h
  rw [Rect.measures, Box.width_rect hin, Box.height_rect hin, Binary32.units_ofNat (by omega),
    Binary32.units_ofNat (by omega), Bool.and_eq_true, decide_eq_true_eq, decide_eq_true_eq]
  unfold Binary32.unitsPerOne
  omega

theorem eq_of_isLive (h : atlas.isLive id width height = true)
    (h' : atlas.isLive id liveWidth liveHeight = true) :
    width = liveWidth ∧ height = liveHeight := by
  obtain ⟨r, hr, -, hsize⟩ := isLive_iff.mp h
  obtain ⟨r', hr', -, hsize'⟩ := isLive_iff.mp h'
  rw [hr] at hr'
  cases hr'
  simp only [Rect.measures, Bool.and_eq_true, decide_eq_true_eq] at hsize hsize'
  unfold Binary32.unitsPerOne at hsize hsize'
  omega

theorem Packed.isLive_iff_box (h : Packed atlas shelves) :
    atlas.isLive id width height = true ↔ 0 < width ∧ 0 < height ∧ ∃ x y,
      atlas.region? id = some (Box.rect ⟨x, y, x + width, y + height⟩) ∧
        Box.Within ⟨x, y, x + width, y + height⟩ atlas.image.width atlas.image.height := by
  rw [isLive_iff]
  constructor
  · rintro ⟨r, hr, harea, hsize⟩
    obtain ⟨⟨x, y, x2, y2⟩, rfl, hin⟩ := h.boxed_region hr
    have hlarge := hin.mono h.width_le h.height_le
    obtain ⟨hwidth, hheight⟩ := (Box.hasArea_rect hlarge).mp harea
    obtain ⟨hx2, hy2⟩ := (measures_rect hlarge).mp hsize
    dsimp only at hwidth hheight hx2 hy2
    subst hx2 hy2
    exact ⟨by omega, by omega, x, y, hr, hin⟩
  · rintro ⟨hwidth, hheight, x, y, hr, hin⟩
    have hlarge := hin.mono h.width_le h.height_le
    refine ⟨_, hr, (Box.hasArea_rect hlarge).mpr ?_, (measures_rect hlarge).mpr ⟨rfl, rfl⟩⟩
    exact ⟨Nat.lt_add_of_pos_right hwidth, Nat.lt_add_of_pos_right hheight⟩

/-! ## One call -/

theorem Packed.hasRoom_of_isLive (h : Packed atlas shelves)
    (hlive : atlas.isLive id liveWidth liveHeight = true) (hwidth : width ≤ liveWidth)
    (hheight : height ≤ liveHeight) : atlas.hasRoom id width height = true := by
  obtain ⟨-, -, x, y, hr, hin⟩ := h.isLive_iff_box.mp hlive
  have hlarge := hin.mono h.width_le h.height_le
  have hroom : (Box.rect ⟨x, y, x + liveWidth, y + liveHeight⟩).hasRoom width height = true := by
    rw [hasRoom_rect hlarge]
    exact ⟨Nat.add_le_add_left hwidth x, Nat.add_le_add_left hheight y⟩
  simp [hasRoom, hr, hroom]

/-- Where there is room for a block, the image does not grow. -/
theorem Packed.sameSize_of_hasRoom (h : Packed atlas shelves)
    (hroom : atlas.hasRoom id width height = true) :
    SameSize atlas (atlas.after (.setRegion id width height pixels stride)) := by
  have houtcome := setRegion_outcome h id width height pixels stride
  unfold Atlas.after stateAfter
  dsimp only
  generalize setRegion id width height pixels stride atlas = result at *
  cases houtcome with
  | refused error => exact .refl atlas
  | full error hid => exact ⟨rfl, rfl⟩
  | emptied hempty hid => exact ⟨rfl, rfl⟩
  | placed hsource hplaced hid =>
    rcases hplaced.size with hsame | hgrown
    · exact ⟨hsame.width, hsame.height⟩
    · have hnone := (h.findIdx?_vacated_eq_none_iff hsource).mp hgrown.none_fits
      rw [hroom] at hnone
      cases hnone

theorem Packed.sameSize_after (h : Packed atlas shelves) (hcall : call.Replaces atlas) :
    SameSize atlas (atlas.after call) := by
  cases hcall with
  | setRegion hsource hlive hwidth hheight =>
    exact h.sameSize_of_hasRoom (h.hasRoom_of_isLive hlive hwidth hheight)

theorem Packed.refusal?_eq_none (h : Packed atlas shelves)
    (hrecords : atlas.regions.size ≤ maxRegionId + 1) (hcall : call.Replaces atlas) :
    call.refusal? atlas = none := by
  cases hcall with
  | @setRegion id width height liveWidth liveHeight pixels stride hsource hlive hwidth hheight =>
    obtain ⟨-, -, x, y, hr, hin⟩ := h.isLive_iff_box.mp hlive
    have hid : id < atlas.regions.size := (Array.getElem?_eq_some_iff.mp hr).1
    have hright := hin.right_le.trans h.width_le
    have hbottom := hin.bottom_le.trans h.height_le
    dsimp only at hright hbottom
    simp only [Call.refusal?, Option.or_eq_none_iff, idRefusal?_eq_none_iff,
      roomRefusal?_eq_none_iff]
    refine ⟨sourceRefusal?_eq_none_iff.mpr ⟨by omega, by omega, hsource⟩, by omega, fun _ _ => ?_⟩
    simp [isFull, h.hasRoom_of_isLive hlive hwidth hheight]

/-- A block no larger than the region in whose place it is put is not refused, and the image keeps
its size. -/
theorem Packed.replaced (h : Packed atlas shelves)
    (hrecords : atlas.regions.size ≤ maxRegionId + 1) (hcall : call.Replaces atlas) :
    ∃ after, call.program atlas = .ok ⟨⟩ after ∧ SameSize atlas after := by
  obtain ⟨after, hdone⟩ := h.carriedOut (h.refusal?_eq_none hrecords hcall)
  have hsame := h.sameSize_after hcall
  rw [after_eq_stateAfter, stateAfter_of_ok hdone] at hsame
  exact ⟨after, hdone, hsame⟩

/-! ## Many calls -/

theorem Packed.sameSize_run (h : Packed atlas shelves) (hcalls : EachReplaces atlas calls) :
    SameSize atlas (atlas.run calls) := by
  unfold Atlas.run
  induction hcalls generalizing shelves with
  | nil atlas => exact .refl atlas
  | cons hcall hcalls ih => exact (h.sameSize_after hcall).trans (ih (h.after _))

/-- A rewrite may move its region, but it changes the size of none. -/
theorem Packed.isLive_after (h : Packed atlas shelves)
    (hrecords : atlas.regions.size ≤ maxRegionId + 1) (hcall : call.Rewrites atlas)
    (hlive : atlas.isLive id width height = true) :
    (atlas.after call).isLive id width height = true := by
  rw [(h.after call).isLive_iff_box]
  obtain ⟨hwidth, hheight, x, y, hr, hin⟩ := h.isLive_iff_box.mp hlive
  refine ⟨hwidth, hheight, ?_⟩
  by_cases hregion : call.region = id
  · obtain ⟨after, hdone, -⟩ := h.replaced hrecords hcall.replaces
    cases hcall with
    | setRegion hsource hlive' =>
      obtain rfl := hregion
      obtain ⟨rfl, rfl⟩ := eq_of_isLive hlive hlive'
      obtain ⟨-, x, y, hset⟩ := holds_after_setRegion h hwidth hheight (succeeds_of_ok hdone)
      exact ⟨x, y, hset.region, hset.within⟩
  · have hholds : Holds atlas id ⟨x, y, x + width, y + height⟩ atlas.image.get? :=
      ⟨hr, hin, fun _ _ _ _ _ _ => rfl⟩
    have hkept := hholds.after h call fun heq => absurd heq hregion
    exact ⟨x, y, hkept.region, hkept.within⟩

theorem Packed.rewrites_after (h : Packed atlas shelves)
    (hrecords : atlas.regions.size ≤ maxRegionId + 1) (hcall : call.Rewrites atlas)
    {later : Call} (hlater : later.Rewrites atlas) : later.Rewrites (atlas.after call) := by
  cases hlater with
  | setRegion hsource hlive => exact .setRegion hsource (h.isLive_after hrecords hcall hlive)

theorem Packed.eachReplaces (h : Packed atlas shelves)
    (hrecords : atlas.regions.size ≤ maxRegionId + 1)
    (hcalls : ∀ call ∈ calls, call.Rewrites atlas) : EachReplaces atlas calls := by
  induction calls generalizing atlas shelves with
  | nil => exact .nil atlas
  | cons call calls ih =>
    obtain ⟨hcall, hcalls⟩ := List.forall_mem_cons.mp hcalls
    have hrecords' := (h.grows_after call).records
    refine .cons hcall.replaces (ih (h.after call) (by omega) ?_)
    intro later hlater
    exact h.rewrites_after hrecords hcall (hcalls later hlater)

/-- In this state of the atlas a replacement by a block no larger is carried out without growth, and
so are replacements one after the other, and rewrites of live regions in any order. -/
structure NeverOutgrown (atlas : Atlas) : Prop where
  replaced : ∀ call : Call, call.Replaces atlas →
    ∃ after, call.program atlas = .ok ⟨⟩ after ∧ SameSize atlas after
  inTurn : ∀ calls, EachReplaces atlas calls → SameSize atlas (atlas.run calls)
  rewritten : ∀ calls : List Call, (∀ call ∈ calls, call.Rewrites atlas) →
    EachReplaces atlas calls ∧ SameSize atlas (atlas.run calls)

/-- In every state that calls reach from a new atlas, replacing regions by blocks no larger needs no
larger image. -/
theorem run_neverOutgrown {limits : AtlasLimits} {start : Atlas} (hnew : new limits = .ok start)
    (calls : List Call) : NeverOutgrown (start.run calls) := by
  have hpacked := packed_run hnew calls
  have hrecords := (withinLimits_run hnew calls).records
  constructor
  · exact fun call hcall => hpacked.replaced hrecords hcall
  · exact fun later hlater => hpacked.sameSize_run hlater
  · intro later hlater
    have heach := hpacked.eachReplaces hrecords hlater
    exact ⟨heach, hpacked.sameSize_run heach⟩

/-- A region that moves with every rewrite, in an image that cannot grow any more. -/
theorem neverOutgrown_when_full :
    let limits : AtlasLimits := ⟨4, 5⟩
    let white (n : Nat) := Array.replicate n Color.white
    let atlas := (within limits).run
      [.setRegion 0 4 2 (white 8) 4, .setRegion 1 2 2 (white 4) 2]
    let rewrite := Call.setRegion 1 2 2 (white 5) 3
    new limits = .ok (within limits) ∧ NeverOutgrown atlas ∧
      (∃ after, setRegion 1 1 2 (white 2) 1 atlas = .ok ⟨⟩ after ∧ SameSize atlas after) ∧
      (atlas.after rewrite).region? 1 ≠ atlas.region? 1 ∧
      ∀ n, SameSize atlas (atlas.run (List.replicate n rewrite)) := by
  intro limits white atlas rewrite
  have hnew : new limits = .ok (within limits) := rfl
  have hkept : NeverOutgrown atlas := run_neverOutgrown hnew _
  have hlive : atlas.isLive 1 2 2 = true := by decide +kernel
  refine ⟨hnew, hkept, ?_, by decide +kernel, ?_⟩
  · exact hkept.replaced (.setRegion 1 1 2 (white 2) 1)
      (.setRegion (by simp [HoldsBlock, white]) hlive (by simp) le_rfl)
  · intro n
    have hrewrite : rewrite.Rewrites atlas := .setRegion (by simp [HoldsBlock, white]) hlive
    refine (hkept.rewritten _ fun call hcall => ?_).2
    rwa [List.eq_of_mem_replicate hcall]

end Atlas
end SpriteField
