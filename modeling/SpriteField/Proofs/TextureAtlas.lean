import SpriteField.Proofs.Atlas.Content
import SpriteField.TextureAtlas

/-!
# When the texture shows the image

To say what a texture shows it is watched: each upload that it is asked for is noted, and whether it
took it.  As long as the texture is not stale, the last upload that it took is the image.  This
rests on the atlas, of which only a region that is set changes the image; a refused call and a
region that is freed do not.
-/

namespace SpriteField

structure Upload where
  width : Nat
  height : Nat
  pixels : Array Color
deriving DecidableEq

def Upload.ofImage (image : Image) : Upload :=
  ⟨image.width, image.height, image.pixels⟩

/-- A texture, and the uploads that it was asked for and that it took, the last one first. -/
structure Watched (τ : Type) where
  texture : τ
  asked : List Upload
  taken : List Upload

variable {τ : Type} [TextureBackend τ]

instance : TextureBackend (Watched τ) where
  upload width height pixels := fun watched =>
    let asked := ⟨width, height, pixels⟩ :: watched.asked
    match TextureBackend.upload width height pixels watched.texture with
    | .ok value texture => .ok value ⟨texture, asked, ⟨width, height, pixels⟩ :: watched.taken⟩
    | .error error texture => .error error ⟨texture, asked, watched.taken⟩

namespace Watched

variable {watched : Watched τ} {image : Image} {texture : τ}

theorem upload_of_ok
    (h : TextureBackend.upload image.width image.height image.pixels watched.texture =
      .ok ⟨⟩ texture) :
    TextureBackend.upload image.width image.height image.pixels watched =
      .ok ⟨⟩ ⟨texture, .ofImage image :: watched.asked, .ofImage image :: watched.taken⟩ := by
  change (match TextureBackend.upload image.width image.height image.pixels watched.texture with
    | .ok _ _ => _
    | .error _ _ => _) = _
  rw [h]
  rfl

theorem upload_of_error {error : EngineError}
    (h : TextureBackend.upload image.width image.height image.pixels watched.texture =
      .error error texture) :
    TextureBackend.upload image.width image.height image.pixels watched =
      .error error ⟨texture, .ofImage image :: watched.asked, watched.taken⟩ := by
  change (match TextureBackend.upload image.width image.height image.pixels watched.texture with
    | .ok _ _ => _
    | .error _ _ => _) = _
  rw [h]
  rfl

end Watched

namespace TextureAtlas

/-! ## Calls -/

inductive Call where
  | setRegion (id width height : Nat) (pixels : Array Color) (stride : Nat)
  | resetRegion (id : Nat)
  | flush

/-- The atlas and its texture after a call, whether or not it was refused. -/
def after (t : TextureAtlas τ) : Call → TextureAtlas τ
  | .setRegion id width height pixels stride =>
    stateAfter (setRegion id width height pixels stride) t
  | .resetRegion id => stateAfter (resetRegion id) t
  | .flush => stateAfter flush t

def run (t : TextureAtlas τ) (calls : List Call) : TextureAtlas τ :=
  calls.foldl after t

/-- The call sets a region and is not refused. -/
def Call.packs (call : Call) (t : TextureAtlas τ) : Bool :=
  match call with
  | .setRegion id width height pixels stride =>
    succeeds (TextureAtlas.setRegion id width height pixels stride) t
  | .resetRegion _ | .flush => false

theorem run_concat (t : TextureAtlas τ) (calls : List Call) (call : Call) :
    t.run (calls ++ [call]) = (t.run calls).after call := by
  rw [run, List.foldl_append]
  rfl

section Programs

variable {t : TextureAtlas τ} {atlas : Atlas} {texture : τ} {error : EngineError} {α : Type}
  {value : α} {id width height stride : Nat} {pixels : Array Color}

omit [TextureBackend τ]

theorem onAtlas_of_ok {change : AtlasM α} (h : change t.atlas = .ok value atlas) :
    onAtlas change t = .ok value ⟨atlas, t.texture, t.stale⟩ := by
  rw [onAtlas, h]

theorem onAtlas_of_error {change : AtlasM α} (h : change t.atlas = .error error atlas) :
    onAtlas change t = .error error ⟨atlas, t.texture, t.stale⟩ := by
  rw [onAtlas, h]

theorem onTexture_of_ok {change : EStateM EngineError τ α}
    (h : change t.texture = .ok value texture) :
    onTexture change t = .ok value ⟨t.atlas, texture, t.stale⟩ := by
  rw [onTexture, h]

theorem onTexture_of_error {change : EStateM EngineError τ α}
    (h : change t.texture = .error error texture) :
    onTexture change t = .error error ⟨t.atlas, texture, t.stale⟩ := by
  rw [onTexture, h]

theorem setRegion_of_ok
    (h : Atlas.setRegion id width height pixels stride t.atlas = .ok ⟨⟩ atlas) :
    setRegion id width height pixels stride t = .ok ⟨⟩ ⟨atlas, t.texture, true⟩ := by
  unfold setRegion
  rw [bind_of_ok (onAtlas_of_ok h)]
  rfl

theorem setRegion_of_error
    (h : Atlas.setRegion id width height pixels stride t.atlas = .error error atlas) :
    setRegion id width height pixels stride t = .error error ⟨atlas, t.texture, t.stale⟩ := by
  unfold setRegion
  rw [bind_of_error (onAtlas_of_error h)]

end Programs

section Flush

variable {t : TextureAtlas τ} {texture : τ}

theorem flush_of_current (h : t.stale = false) : flush t = .ok false t := by
  unfold flush
  rw [get_bind]
  simp only [h]
  rfl

theorem flush_of_ok (hstale : t.stale = true)
    (h : TextureBackend.upload t.atlas.image.width t.atlas.image.height t.atlas.image.pixels
      t.texture = .ok ⟨⟩ texture) :
    flush t = .ok true ⟨t.atlas, texture, false⟩ := by
  unfold flush
  rw [get_bind]
  simp only [hstale, if_true]
  rw [bind_of_ok (onTexture_of_ok h)]
  rfl

theorem flush_of_error {error : EngineError} (hstale : t.stale = true)
    (h : TextureBackend.upload t.atlas.image.width t.atlas.image.height t.atlas.image.pixels
      t.texture = .error error texture) :
    flush t = .error error ⟨t.atlas, texture, true⟩ := by
  unfold flush
  rw [get_bind]
  simp only [hstale, if_true]
  rw [bind_of_error (onTexture_of_error h), hstale]

theorem after_flush_of_current (h : t.stale = false) : t.after .flush = t :=
  stateAfter_of_ok (flush_of_current h)

theorem after_flush_of_ok (hstale : t.stale = true)
    (h : TextureBackend.upload t.atlas.image.width t.atlas.image.height t.atlas.image.pixels
      t.texture = .ok ⟨⟩ texture) :
    t.after .flush = ⟨t.atlas, texture, false⟩ :=
  stateAfter_of_ok (flush_of_ok hstale h)

theorem after_flush_of_error {error : EngineError} (hstale : t.stale = true)
    (h : TextureBackend.upload t.atlas.image.width t.atlas.image.height t.atlas.image.pixels
      t.texture = .error error texture) :
    t.after .flush = ⟨t.atlas, texture, true⟩ :=
  stateAfter_of_error (flush_of_error hstale h)

end Flush

/-! ## The atlas of a run -/

/-- What a call does to the atlas.  A flush does nothing to it. -/
def Call.change? : Call → Option Atlas.Call
  | .setRegion id width height pixels stride => some (.setRegion id width height pixels stride)
  | .resetRegion id => some (.resetRegion id)
  | .flush => none

theorem after_setRegion (t : TextureAtlas τ) (id width height : Nat) (pixels : Array Color)
    (stride : Nat) :
    t.after (.setRegion id width height pixels stride) =
      ⟨t.atlas.after (.setRegion id width height pixels stride), t.texture,
        succeeds (Atlas.setRegion id width height pixels stride) t.atlas || t.stale⟩ := by
  rw [after, Atlas.after]
  cases hset : Atlas.setRegion id width height pixels stride t.atlas with
  | ok value atlas =>
    rw [stateAfter_of_ok (setRegion_of_ok hset), stateAfter_of_ok hset, succeeds_of_ok hset,
      Bool.true_or]
  | error error atlas =>
    rw [stateAfter_of_error (setRegion_of_error hset), stateAfter_of_error hset,
      succeeds_of_error hset, Bool.false_or]

theorem after_resetRegion (t : TextureAtlas τ) (id : Nat) :
    t.after (.resetRegion id) = ⟨t.atlas.after (.resetRegion id), t.texture, t.stale⟩ := by
  rw [after, Atlas.after, resetRegion]
  cases hreset : Atlas.resetRegion id t.atlas with
  | ok value atlas => rw [stateAfter_of_ok (onAtlas_of_ok hreset), stateAfter_of_ok hreset]
  | error error atlas =>
    rw [stateAfter_of_error (onAtlas_of_error hreset), stateAfter_of_error hreset]

theorem atlas_after (t : TextureAtlas τ) (call : Call) :
    (t.after call).atlas = t.atlas.run call.change?.toList := by
  cases call with
  | setRegion id width height pixels stride =>
    rw [after_setRegion]
    rfl
  | resetRegion id =>
    rw [after_resetRegion]
    rfl
  | flush =>
    cases hstale : t.stale with
    | false =>
      rw [after_flush_of_current hstale]
      rfl
    | true =>
      cases hupload : TextureBackend.upload t.atlas.image.width t.atlas.image.height
          t.atlas.image.pixels t.texture with
      | ok value texture =>
        rw [after_flush_of_ok hstale hupload]
        rfl
      | error error texture =>
        rw [after_flush_of_error hstale hupload]
        rfl

/-- The atlas goes its own way, whatever becomes of the uploads. -/
theorem atlas_run (t : TextureAtlas τ) (calls : List Call) :
    (t.run calls).atlas = t.atlas.run (calls.filterMap (·.change?)) := by
  induction calls generalizing t with
  | nil => rfl
  | cons call calls ih =>
    change ((t.after call).run calls).atlas = _
    rw [ih, atlas_after, Atlas.run, Atlas.run, Atlas.run, ← List.foldl_append]
    congr 1
    cases hchange : call.change? with
    | none => rw [List.filterMap_cons_none hchange]; rfl
    | some change => rw [List.filterMap_cons_some hchange]; rfl

omit [TextureBackend τ] in
theorem new_eq_ok {texture : τ} {limits : AtlasLimits} {start : TextureAtlas τ}
    (h : new texture limits = .ok start) :
    Atlas.new limits = .ok start.atlas ∧ start = ofAtlas texture start.atlas := by
  unfold new at h
  cases hatlas : Atlas.new limits with
  | error error =>
    rw [hatlas] at h
    cases h
  | ok atlas =>
    rw [hatlas] at h
    cases h
    exact ⟨rfl, rfl⟩

/-! ## Watching the uploads -/

/-- The same atlas, over its texture with nothing noted yet. -/
def watched (t : TextureAtlas τ) : TextureAtlas (Watched τ) :=
  ⟨t.atlas, ⟨t.texture, [], []⟩, t.stale⟩

def unwatched (t : TextureAtlas (Watched τ)) : TextureAtlas τ :=
  ⟨t.atlas, t.texture.texture, t.stale⟩

theorem unwatched_after (t : TextureAtlas (Watched τ)) (call : Call) :
    (t.after call).unwatched = t.unwatched.after call := by
  cases call with
  | setRegion id width height pixels stride =>
    rw [after_setRegion, after_setRegion]
    rfl
  | resetRegion id =>
    rw [after_resetRegion, after_resetRegion]
    rfl
  | flush =>
    cases hstale : t.stale with
    | false => rw [after_flush_of_current hstale, after_flush_of_current (t := t.unwatched) hstale]
    | true =>
      cases hupload : TextureBackend.upload t.atlas.image.width t.atlas.image.height
          t.atlas.image.pixels t.texture.texture with
      | ok value texture =>
        rw [after_flush_of_ok hstale (Watched.upload_of_ok hupload),
          after_flush_of_ok (t := t.unwatched) hstale hupload]
        rfl
      | error error texture =>
        rw [after_flush_of_error hstale (Watched.upload_of_error hupload),
          after_flush_of_error (t := t.unwatched) hstale hupload]
        rfl

/-- Watching the uploads changes nothing. -/
theorem unwatched_run (t : TextureAtlas (Watched τ)) (calls : List Call) :
    (t.run calls).unwatched = t.unwatched.run calls := by
  induction calls generalizing t with
  | nil => rfl
  | cons call calls ih =>
    change ((t.after call).run calls).unwatched = (t.unwatched.after call).run calls
    rw [ih, unwatched_after]

/-- All that a call can come to, as far as it shows. -/
inductive Step (t : TextureAtlas (Watched τ)) (call : Call) : TextureAtlas (Watched τ) → Prop
  | packed {atlas : Atlas} (hpacks : call.packs t = true) : Step t call ⟨atlas, t.texture, true⟩
  | shown {texture : Watched τ} (hpacks : call.packs t = false)
    (htaken : texture.taken = .ofImage t.atlas.image :: t.texture.taken) :
    Step t call ⟨t.atlas, texture, false⟩
  | kept {atlas : Atlas} {texture : Watched τ} (hpacks : call.packs t = false)
    (himage : atlas.image = t.atlas.image) (htaken : texture.taken = t.texture.taken) :
    Step t call ⟨atlas, texture, t.stale⟩

omit [TextureBackend τ] in
theorem succeeds_setRegion (t : TextureAtlas τ) (id width height : Nat) (pixels : Array Color)
    (stride : Nat) :
    succeeds (setRegion id width height pixels stride) t =
      succeeds (Atlas.setRegion id width height pixels stride) t.atlas := by
  cases hset : Atlas.setRegion id width height pixels stride t.atlas with
  | ok value atlas => rw [succeeds_of_ok (setRegion_of_ok hset), succeeds_of_ok hset]
  | error error atlas => rw [succeeds_of_error (setRegion_of_error hset), succeeds_of_error hset]

theorem step_after {t : TextureAtlas (Watched τ)} {shelves : List Shelf}
    (h : t.atlas.Packed shelves) (call : Call) : Step t call (t.after call) := by
  cases call with
  | setRegion id width height pixels stride =>
    have hpacks := succeeds_setRegion t id width height pixels stride
    rw [after_setRegion]
    cases hset : succeeds (Atlas.setRegion id width height pixels stride) t.atlas with
    | true =>
      rw [hset] at hpacks
      exact .packed hpacks
    | false =>
      rw [hset] at hpacks
      have hrefused :
          (Atlas.Call.setRegion id width height pixels stride).succeeds t.atlas = false := hset
      exact .kept hpacks (h.image_after_of_refused hrefused) rfl
  | resetRegion id =>
    rw [after_resetRegion]
    exact .kept rfl (Atlas.image_after_resetRegion t.atlas id) rfl
  | flush =>
    cases hstale : t.stale with
    | false =>
      rw [after_flush_of_current hstale]
      exact .kept rfl rfl rfl
    | true =>
      cases hupload : TextureBackend.upload t.atlas.image.width t.atlas.image.height
          t.atlas.image.pixels t.texture.texture with
      | ok value texture =>
        rw [after_flush_of_ok hstale (Watched.upload_of_ok hupload)]
        exact .shown rfl rfl
      | error error texture =>
        rw [after_flush_of_error hstale (Watched.upload_of_error hupload), ← hstale]
        exact .kept rfl rfl rfl

omit [TextureBackend τ] in
theorem Step.taken_suffix {t t' : TextureAtlas (Watched τ)} {call : Call} (h : Step t call t') :
    t.texture.taken <:+ t'.texture.taken := by
  cases h with
  | packed hpacks => exact List.suffix_rfl
  | shown hpacks htaken =>
    rw [htaken]
    exact List.suffix_cons _ _
  | kept hpacks himage htaken =>
    rw [htaken]

/-! ## Runs -/

/-- Some region was set, and the texture has taken no upload since. -/
def PackedSince (start : TextureAtlas (Watched τ)) (calls : List Call) : Prop :=
  ∃ (earlier : List Call) (call : Call) (later : List Call), calls = earlier ++ call :: later ∧
    call.packs (start.run earlier) = true ∧
    (start.run earlier).texture.taken = (start.run calls).texture.taken

/-- What the texture shows and whether it is stale, after the calls. -/
structure Mirrors (start : TextureAtlas (Watched τ)) (calls : List Call) : Prop where
  shown : (start.run calls).stale = false →
    (start.run calls).texture.taken.head? = some (.ofImage (start.run calls).atlas.image)
  stale_iff : (start.run calls).stale = true ↔
    (start.run calls).texture.taken = [] ∨ PackedSince start calls

/-- Either the last call sets a region, or an earlier one does. -/
theorem packedSince_concat (start : TextureAtlas (Watched τ)) (calls : List Call) (call : Call) :
    PackedSince start (calls ++ [call]) ↔
      (call.packs (start.run calls) = true ∧
        (start.run calls).texture.taken = ((start.run calls).after call).texture.taken) ∨
      ∃ (earlier : List Call) (other : Call) (later : List Call),
        calls = earlier ++ other :: later ∧ other.packs (start.run earlier) = true ∧
        (start.run earlier).texture.taken = ((start.run calls).after call).texture.taken := by
  rw [PackedSince, run_concat]
  constructor
  · rintro ⟨earlier, other, later, hsplit, hpacks, htaken⟩
    cases later using List.reverseRecOn with
    | nil =>
      obtain ⟨rfl, hlast⟩ := List.append_inj' hsplit rfl
      cases hlast
      exact Or.inl ⟨hpacks, htaken⟩
    | append_singleton later last =>
      rw [← List.cons_append, ← List.append_assoc] at hsplit
      obtain ⟨rfl, -⟩ := List.append_inj' hsplit rfl
      exact Or.inr ⟨earlier, other, later, rfl, hpacks, htaken⟩
  · rintro (⟨hpacks, htaken⟩ | ⟨earlier, other, later, rfl, hpacks, htaken⟩)
    · exact ⟨calls, call, [], rfl, hpacks, htaken⟩
    · exact ⟨earlier, other, later ++ [call], by simp, hpacks, htaken⟩

section Runs

variable {start : TextureAtlas (Watched τ)} {limits : AtlasLimits}
  (hatlas : Atlas.new limits = .ok start.atlas)
include hatlas

theorem step_run (calls : List Call) (call : Call) :
    Step (start.run calls) call ((start.run calls).after call) := by
  have hpacked := Atlas.packed_run hatlas (calls.filterMap (·.change?))
  rw [← atlas_run] at hpacked
  exact step_after hpacked call

theorem taken_suffix_run (calls later : List Call) :
    (start.run calls).texture.taken <:+ (start.run (calls ++ later)).texture.taken := by
  induction later using List.reverseRecOn with
  | nil => rw [List.append_nil]
  | append_singleton later call ih =>
    have hstep := step_run hatlas (calls ++ later) call
    rw [← run_concat, List.append_assoc] at hstep
    exact ih.trans hstep.taken_suffix

theorem Mirrors.concat {calls : List Call} (h : Mirrors start calls) (call : Call) :
    Mirrors start (calls ++ [call]) := by
  have hstep := step_run hatlas calls call
  have hsince := packedSince_concat start calls call
  have hgrows : ∀ earlier later, calls = earlier ++ later →
      (start.run earlier).texture.taken.length ≤ (start.run calls).texture.taken.length := by
    rintro earlier later rfl
    exact (taken_suffix_run hatlas earlier later).length_le
  rw [← run_concat] at hstep hsince
  generalize hnext : start.run (calls ++ [call]) = next at hstep hsince
  cases hstep with
  | packed hpacks =>
    constructor
    · rw [hnext]
      rintro ⟨⟩
    · rw [hnext]
      exact iff_of_true rfl (Or.inr (hsince.mpr (Or.inl ⟨hpacks, rfl⟩)))
  | @shown texture hpacks htaken =>
    constructor
    · rw [hnext]
      intro _
      exact congrArg List.head? htaken
    · rw [hnext]
      refine iff_of_false Bool.false_ne_true ?_
      rw [not_or, hsince, htaken]
      refine ⟨List.cons_ne_nil _ _, ?_⟩
      rintro (⟨hpacks', -⟩ | ⟨earlier, other, later, hsplit, -, hsame⟩)
      · rw [hpacks] at hpacks'
        cases hpacks'
      · -- Before this call the texture had taken one upload less.
        have hlength := hgrows earlier (other :: later) hsplit
        rw [hsame, List.length_cons] at hlength
        omega
  | @kept atlas texture hpacks himage htaken =>
    constructor
    · rw [hnext, himage, htaken]
      exact h.shown
    · rw [hnext, hsince, htaken, hpacks]
      simp only [Bool.false_eq_true, false_and, false_or]
      exact h.stale_iff

theorem mirrors_run (hstale : start.stale = true) (hnone : start.texture.taken = [])
    (calls : List Call) : Mirrors start calls := by
  induction calls using List.reverseRecOn with
  | nil =>
    constructor
    · intro hcurrent
      cases hstale.symm.trans hcurrent
    · exact iff_of_true hstale (Or.inl hnone)
  | append_singleton calls call ih => exact ih.concat hatlas call

end Runs

/-- A flush does nothing if nothing is to be shown, and if it is refused it can be tried again. -/
structure FlushesWhenStale (t : TextureAtlas (Watched τ)) : Prop where
  current_iff : (∃ t', flush t = .ok false t') ↔ t.stale = false
  idle : ∀ t', flush t = .ok false t' → t' = t
  refused : ∀ error t', flush t = .error error t' → t'.stale = true ∧ t'.atlas = t.atlas

theorem flushesWhenStale (t : TextureAtlas (Watched τ)) : FlushesWhenStale t := by
  cases hstale : t.stale with
  | false =>
    have hidle := flush_of_current hstale
    constructor <;> simp [hidle, hstale]
  | true =>
    cases hupload : TextureBackend.upload t.atlas.image.width t.atlas.image.height
        t.atlas.image.pixels t.texture.texture with
    | ok value texture =>
      have htaken := flush_of_ok hstale (Watched.upload_of_ok hupload)
      constructor <;> simp [htaken, hstale]
    | error error texture =>
      have hrefused := flush_of_error hstale (Watched.upload_of_error hupload)
      constructor <;> simp [hrefused, hstale]

/-- Over any texture, in every state that calls reach from a new atlas, the last upload that the
texture took is the image unless a region was set since. -/
theorem run_mirrors {texture : τ} {limits : AtlasLimits} {start : TextureAtlas τ}
    (hnew : new texture limits = .ok start) (calls : List Call) :
    (start.watched.run calls).unwatched = start.run calls ∧ Mirrors start.watched calls ∧
      FlushesWhenStale (start.watched.run calls) := by
  obtain ⟨hatlas, hstart⟩ := new_eq_ok hnew
  have hstale : start.watched.stale = true := by
    rw [hstart]
    rfl
  exact ⟨unwatched_run start.watched calls, mirrors_run hatlas hstale rfl calls,
    flushesWhenStale _⟩

/-- A texture that takes and refuses its uploads as it is told to beforehand. -/
structure ScriptedTexture where
  answers : List Bool

instance : TextureBackend ScriptedTexture where
  upload _ _ _ := fun t =>
    match t.answers with
    | false :: answers => .error (.uploadFailed "device lost") ⟨answers⟩
    | true :: answers => .ok ⟨⟩ ⟨answers⟩
    | [] => .ok ⟨⟩ t

/-- A refused upload, then one that is taken, then calls that leave the image as it is. -/
theorem mirrors_after_refusal :
    let start : TextureAtlas ScriptedTexture := ofAtlas ⟨[false, true]⟩ (Atlas.within .standard)
    let calls : List Call := [.setRegion 0 2 1 #[.white, .white] 2, .flush, .flush,
      .setRegion 1 2 2 #[.white] 2, .resetRegion 0]
    new ⟨[false, true]⟩ .standard = .ok start ∧ Mirrors start.watched calls ∧
      (start.watched.run calls).texture.asked.length = 2 ∧
      (start.watched.run calls).texture.taken =
        [.ofImage (start.watched.run calls).atlas.image] := by
  intro start calls
  have hnew : new ⟨[false, true]⟩ .standard = .ok start := rfl
  have hmirrors := (run_mirrors hnew calls).2.1
  refine ⟨hnew, hmirrors, by decide +kernel, ?_⟩
  have hone : (start.watched.run calls).texture.taken.length = 1 := by decide +kernel
  obtain ⟨upload, htaken⟩ := List.length_eq_one_iff.mp hone
  have hshown := hmirrors.shown (by decide +kernel)
  rw [htaken] at hshown
  rw [htaken, ← Option.some.inj hshown]

end TextureAtlas
end SpriteField
