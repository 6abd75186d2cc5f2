import SpriteField.Proofs.Image.InPlace

/-!
# Resizing in place

An image that changes its size is laid out anew in a buffer of its own, and it gives way to that
buffer at the end.  So it keeps its pixels where there is no memory for the new ones, and where
there is it keeps those that lie in both sizes, in every combination of growing and shrinking.
-/

namespace SpriteField
namespace Image

variable {σ : Type} {grants : Nat → Bool} {image : Image} {width height : Nat} {fill : Color}

/-- There is no buffer for `count` pixels: no machine has so many bytes, or this one does not grant
them.  An empty buffer takes no memory. -/
def Refuses (grants : Nat → Bool) (count : Nat) : Prop :=
  maxBufferBytes < pixelBytes * count ∨ 0 < count ∧ grants (pixelBytes * count) = false

def allocate (grants : Nat → Bool) (width height : Nat) (fill : Color) :
    EStateM Stop σ (Array Color) :=
  let count := width * height
  if count ≤ maxWord ∧ bufferFits pixelBytes count ∧ (count = 0 ∨ grants (pixelBytes * count)) then
    pure (Array.replicate count fill)
  else
    throw (.refused (.outOfMemory width height))

def resizeInPlace (grants : Nat → Bool) (width height : Nat) (fill : Color) :
    EStateM Stop Frame PUnit := do
  let frame ← get
  if width = frame.width ∧ height = frame.height then return ⟨⟩
  else
    let buffer ← allocate grants width height fill
    let pixels ← onBuffer buffer
      (writeRows 0 (min frame.width width) (min frame.height height) frame.pixels frame.width width)
    set (Frame.mk width height pixels)

theorem granted_iff {count : Nat} :
    count ≤ maxWord ∧ bufferFits pixelBytes count ∧ (count = 0 ∨ grants (pixelBytes * count)) ↔
      ¬Refuses grants count := by
  rw [Refuses, not_or, bufferFits, decide_eq_true_iff, Nat.not_lt, maxBufferBytes, pixelBytes,
    maxWord, not_and, Bool.not_eq_false, Nat.pos_iff_ne_zero, ← or_iff_not_imp_left]
  exact ⟨And.right, fun h => ⟨by omega, h⟩⟩

theorem allocate_of_granted (h : ¬Refuses grants (width * height)) (state : σ) :
    allocate grants width height fill state =
      .ok (Array.replicate (width * height) fill) state := by
  rw [allocate, if_pos (granted_iff.mpr h)]
  rfl

theorem allocate_of_refused (h : Refuses grants (width * height)) (state : σ) :
    allocate grants width height fill state =
      .error (.refused (.outOfMemory width height)) state := by
  rw [allocate, if_neg fun hgranted => granted_iff.mp hgranted h]
  rfl

theorem resizeInPlace_of_same (hsame : width = image.width ∧ height = image.height) :
    resizeInPlace grants width height fill image.frame = .ok ⟨⟩ image.frame := by
  have hsame : width = image.frame.width ∧ height = image.frame.height := hsame
  rw [resizeInPlace, get_bind, if_pos hsame]
  rfl

theorem resizeInPlace_of_refused (hother : ¬(width = image.width ∧ height = image.height))
    (hrefused : Refuses grants (width * height)) :
    resizeInPlace grants width height fill image.frame =
      .error (.refused (.outOfMemory width height)) image.frame := by
  have hother : ¬(width = image.frame.width ∧ height = image.frame.height) := hother
  rw [resizeInPlace, get_bind, if_neg hother, bind_of_error (allocate_of_refused hrefused _)]

theorem resizeInPlace_of_granted (hwidth : image.width < 2 ^ 32) (hheight : image.height < 2 ^ 32)
    (hwidth' : width < 2 ^ 32) (hother : ¬(width = image.width ∧ height = image.height))
    (hgranted : ¬Refuses grants (width * height)) :
    resizeInPlace grants width height fill image.frame =
      .ok ⟨⟩ (image.overlap (filled width height fill)).frame := by
  have hother : ¬(width = image.frame.width ∧ height = image.frame.height) := hother
  have hcopyWidth : min image.width width < 2 ^ 32 := Nat.lt_of_le_of_lt (Nat.min_le_left ..) hwidth
  have hcopyHeight : min image.height height < 2 ^ 32 :=
    Nat.lt_of_le_of_lt (Nat.min_le_left ..) hheight
  have hwritten : writeRows 0 (min image.frame.width width) (min image.frame.height height)
      image.frame.pixels image.frame.width width (Array.replicate (width * height) fill) =
        .ok ⟨⟩ (image.overlap (filled width height fill)).pixels :=
    writeRows_eq (copyRows_overlap image (filled width height fill)) (Nat.min_le_left ..)
      (Nat.min_le_right ..) (rowsFit_maxWord hcopyWidth hwidth hcopyHeight)
      (rowsFit_maxWord hcopyWidth hwidth' hcopyHeight)
  rw [resizeInPlace, get_bind, if_neg hother, bind_of_ok (allocate_of_granted hgranted _),
    bind_of_ok (onBuffer_of_ok hwritten _)]
  rfl

/-! ## What is kept -/

/-- What a change of size comes to.  Every pixel of the new size is an old one or filled. -/
structure Resizes (grants : Nat → Bool) (image : Image) (width height : Nat) (fill : Color)
    (answer : EStateM.Result Stop Frame PUnit) : Prop where
  refused : ¬(width = image.width ∧ height = image.height) → Refuses grants (width * height) →
    answer = .error (.refused (.outOfMemory width height)) image.frame
  resized : width = image.width ∧ height = image.height ∨ ¬Refuses grants (width * height) →
    ∃ image' : Image, answer = .ok ⟨⟩ image'.frame ∧ image'.width = width ∧
      image'.height = height ∧ image'.pixels.size = width * height ∧
      ∀ x y, x < width → y < height → image'.get? x y =
        if x < image.width ∧ y < image.height then image.get? x y else some fill

theorem resizeInPlace_resizes (hwidth : image.width < 2 ^ 32) (hheight : image.height < 2 ^ 32)
    (hwidth' : width < 2 ^ 32) :
    Resizes grants image width height fill
      (resizeInPlace grants width height fill image.frame) where
  refused := resizeInPlace_of_refused
  resized := by
    intro hdone
    by_cases hsame : width = image.width ∧ height = image.height
    · obtain ⟨rfl, rfl⟩ := hsame
      refine ⟨image, resizeInPlace_of_same ⟨rfl, rfl⟩, rfl, rfl, image.size_pixels, ?_⟩
      intro x y hx hy
      rw [if_pos ⟨hx, hy⟩]
    · have hgranted := hdone.resolve_left hsame
      refine ⟨image.overlap (filled width height fill), ?_, rfl, rfl, size_pixels _, ?_⟩
      · exact resizeInPlace_of_granted hwidth hheight hwidth' hsame hgranted
      · intro x y hx hy
        rw [get?_overlap _ _ hx hy, get?_filled fill hx hy]

theorem refuses_ample_iff {count : Nat} :
    Refuses (fun _ => true) count ↔ ¬bufferFits pixelBytes count = true := by
  simp [Refuses, bufferFits]

/-- With memory for every buffer that there can be, nothing else is refused than by `resize`. -/
theorem resizeInPlace_ample_eq (hwidth : image.width < 2 ^ 32) (hheight : image.height < 2 ^ 32)
    (hwidth' : width < 2 ^ 32) :
    resizeInPlace (fun _ => true) width height fill image.frame =
      answered image (image.resize width height fill) := by
  by_cases hsame : width = image.width ∧ height = image.height
  · rw [resizeInPlace_of_same hsame, resize, if_pos hsame]
    rfl
  rw [resize, if_neg hsame, new]
  by_cases hfits : bufferFits pixelBytes (width * height) = true
  · have hgranted := mt refuses_ample_iff.mp (not_not_intro hfits)
    rw [resizeInPlace_of_granted hwidth hheight hwidth' hsame hgranted, if_pos hfits]
    rfl
  · rw [resizeInPlace_of_refused hsame (refuses_ample_iff.mpr hfits), if_neg hfits]
    rfl

/-- In place and on any machine, a change of size keeps what lies in both sizes, or it is refused
for lack of memory and changes nothing.  No place leaves its buffer and no word overflows. -/
theorem resizeInPlace_keepsOverlap (image : Image) (width height : Nat) (fill : Color)
    (hwidth : image.width < 2 ^ 32) (hheight : image.height < 2 ^ 32) (hwidth' : width < 2 ^ 32) :
    (∀ grants, Resizes grants image width height fill
        (resizeInPlace grants width height fill image.frame)) ∧
      resizeInPlace (fun _ => true) width height fill image.frame =
        answered image (image.resize width height fill) :=
  ⟨fun _ => resizeInPlace_resizes hwidth hheight hwidth',
    resizeInPlace_ample_eq hwidth hheight hwidth'⟩

/-- Wider and lower at once, with memory for the new pixels and without. -/
theorem keepsOverlap_wider_lower :
    let image := (Image.mk 1 3 #[.white, .black, .white] rfl)
    (∀ grants, Resizes grants image 2 2 .transparent
        (resizeInPlace grants 2 2 .transparent image.frame)) ∧
      resizeInPlace (· ≤ 16) 2 2 .transparent image.frame =
        .ok ⟨⟩ ⟨2, 2, #[.white, .transparent, .black, .transparent]⟩ ∧
      resizeInPlace (· < 16) 2 2 .transparent image.frame =
        .error (.refused (.outOfMemory 2 2)) image.frame :=
  ⟨(resizeInPlace_keepsOverlap _ 2 2 _ (by decide) (by decide) (by decide)).1, rfl, rfl⟩

end Image
end SpriteField
