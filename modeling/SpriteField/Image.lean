import SpriteField.Blit
import SpriteField.Capacity

/-!
# Images

A row-major pixel buffer that always holds exactly `width * height` pixels.  Resizing keeps every
pixel that lies in both sizes, and a block is written either completely or not at all.
-/

namespace SpriteField

inductive ImageError where
  | outOfMemory (width height : Nat)
  | outOfBounds (x y width height imageWidth imageHeight : Nat)
  | sourceTooSmall (size width height stride : Nat)
deriving DecidableEq, Inhabited

def ImageError.message : ImageError → String
  | .outOfMemory width height => s!"allocation of {width}x{height} pixels failed"
  | .outOfBounds x y width height imageWidth imageHeight =>
    s!"block {width}x{height} at ({x}, {y}) exceeds {imageWidth}x{imageHeight} image"
  | .sourceTooSmall size width height stride =>
    s!"source of {size} pixels too small for {width}x{height} block with stride {stride}"

structure Image where
  width : Nat
  height : Nat
  pixels : Array Color
  size_pixels : pixels.size = width * height
deriving DecidableEq

namespace Image

def empty : Image := ⟨0, 0, #[], rfl⟩

instance : Inhabited Image where
  default := empty

def pixelBytes : Nat := 4

def filled (width height : Nat) (fill : Color) : Image :=
  ⟨width, height, Array.replicate (width * height) fill, by simp⟩

def new (width height : Nat) (fill : Color) : Except ImageError Image :=
  if bufferFits pixelBytes (width * height) then return filled width height fill
  else throw (.outOfMemory width height)

def single (color : Color) : Image :=
  ⟨1, 1, #[color], rfl⟩

def get? (image : Image) (x y : Nat) : Option Color :=
  if x < image.width ∧ y < image.height then image.pixels[y * image.width + x]? else none

/-- Replaces the pixel at `(x, y)`; a place outside the image is left alone. -/
def put (image : Image) (x y : Nat) (color : Color) : Image :=
  if x < image.width ∧ y < image.height then
    ⟨image.width, image.height, image.pixels.setIfInBounds (y * image.width + x) color,
      by simpa using image.size_pixels⟩
  else image

theorem rowsFit {width height imageWidth imageHeight x y : Nat} (hx : x + width ≤ imageWidth)
    (hy : y + height ≤ imageHeight) :
    RowsFit width imageWidth height (y * imageWidth + x) (imageWidth * imageHeight) := by
  cases height with
  | zero => exact Or.inl rfl
  | succ height =>
    right
    have h : (y + height + 1) * imageWidth ≤ imageHeight * imageWidth :=
      Nat.mul_le_mul_right _ (by omega)
    rw [Nat.succ_mul, Nat.add_mul] at h
    rw [Nat.mul_comm imageWidth imageHeight]
    simp only [Nat.add_sub_cancel]
    omega

/-- The pixels of `image` laid over the top left corner of `onto`. -/
def overlap (image onto : Image) : Image :=
  let width := min image.width onto.width
  let height := min image.height onto.height
  have h : (blit width height image.pixels image.width onto.pixels onto.width).isSome :=
    isSome_copyRows
      (by simpa [image.size_pixels] using rowsFit (x := 0) (y := 0)
            (show 0 + width ≤ image.width by omega) (show 0 + height ≤ image.height by omega))
      (by simpa [onto.size_pixels] using rowsFit (x := 0) (y := 0)
            (show 0 + width ≤ onto.width by omega) (show 0 + height ≤ onto.height by omega))
  ⟨onto.width, onto.height,
    (blit width height image.pixels image.width onto.pixels onto.width).get h,
    (size_copyRows (Option.some_get h).symm).trans onto.size_pixels⟩

/-- Changes the size; new pixels take the color `fill`. -/
def resize (image : Image) (width height : Nat) (fill : Color) : Except ImageError Image :=
  if width = image.width ∧ height = image.height then return image
  else return image.overlap (← new width height fill)

/-- Copies a block whose rows lie `stride` pixels apart so that its corner lands on `(x, y)`. -/
def blitFrom (image : Image) (x y width height : Nat) (src : Array Color) (stride : Nat) :
    Except ImageError Image :=
  if width = 0 ∨ height = 0 then return image
  else if hfit : ¬(x + width ≤ image.width ∧ y + height ≤ image.height) then
    throw (.outOfBounds x y width height image.width image.height)
  else if hsrc : stride < width ∨ src.size < (height - 1) * stride + width then
    throw (.sourceTooSmall src.size width height stride)
  else
    have h : (copyRows width src stride image.width height 0 (y * image.width + x)
        image.pixels).isSome :=
      isSome_copyRows (.inr (by omega))
        (by rw [image.size_pixels]; exact rowsFit (by omega) (by omega))
    return ⟨image.width, image.height, (copyRows width src stride image.width height 0
        (y * image.width + x) image.pixels).get h,
      (size_copyRows (Option.some_get h).symm).trans image.size_pixels⟩

end Image

end SpriteField
