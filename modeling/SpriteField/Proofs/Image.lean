import SpriteField.Image
import Mathlib.Tactic

/-!
# Copied blocks and resized images

Pixel by pixel: a copy writes the block and leaves everything else alone, a block that fits is
always written, and a resized image keeps what lies in both sizes.
-/

namespace SpriteField

/-! ## Copying rows -/

theorem getElem?_copyRow (src : Array Color) (srcStart destStart width : Nat)
    (dest : Array Color) (k : Nat) :
    (copyRow src srcStart destStart width dest)[k]? =
      if destStart ≤ k ∧ k < destStart + width ∧ k < dest.size then
        some (src.getD (srcStart + (k - destStart)) default)
      else dest[k]? := by
  induction width generalizing dest with
  | zero =>
    rw [copyRow, if_neg (by omega)]
  | succ width ih =>
    rw [copyRow, ih, Array.size_setIfInBounds, Array.getElem?_setIfInBounds]
    by_cases hlast : destStart + width = k
    · subst hlast
      rw [if_neg (by omega), if_pos rfl]
      by_cases hsize : destStart + width < dest.size
      · rw [if_pos hsize, if_pos (by omega), Nat.add_sub_cancel_left]
      · rw [if_neg hsize, if_neg (by omega), Array.getElem?_eq_none (by omega)]
    · rw [if_neg hlast]
      by_cases hrow : destStart ≤ k ∧ k < destStart + width ∧ k < dest.size
      · rw [if_pos hrow, if_pos (by omega)]
      · rw [if_neg hrow, if_neg (by omega)]

section CopyRows

variable {width : Nat} {src : Array Color} {srcStride destStride height srcStart destStart : Nat}
  {dest out : Array Color}

theorem copyRows_succ
    (h : copyRows width src srcStride destStride (height + 1) srcStart destStart dest = some out) :
    srcStart + width ≤ src.size ∧ destStart + width ≤ dest.size ∧
      copyRows width src srcStride destStride height (srcStart + srcStride)
        (destStart + destStride) (copyRow src srcStart destStart width dest) = some out := by
  rw [copyRows] at h
  split at h
  next hfit => exact ⟨hfit.1, hfit.2, h⟩
  next => cases h

theorem RowsFit.row {stride start size row : Nat} (h : RowsFit width stride height start size)
    (hrow : row < height) : start + row * stride + width ≤ size := by
  have hlast := h.resolve_left (by omega)
  have hle : row * stride ≤ (height - 1) * stride := Nat.mul_le_mul_right _ (by omega)
  omega

theorem getElem?_copyRows_outside
    (h : copyRows width src srcStride destStride height srcStart destStart dest = some out)
    {k : Nat}
    (hk : ∀ row col, row < height → col < width → k ≠ destStart + row * destStride + col) :
    out[k]? = dest[k]? := by
  induction height generalizing srcStart destStart dest with
  | zero =>
    rw [copyRows] at h
    rw [Option.some.inj h]
  | succ height ih =>
    obtain ⟨-, -, hrest⟩ := copyRows_succ h
    have htail : ∀ row col, row < height → col < width →
        k ≠ destStart + destStride + row * destStride + col := by
      intro row col hrow hcol
      have hnext := hk (row + 1) col (by omega) hcol
      rw [Nat.succ_mul] at hnext
      omega
    have hhead : ¬(destStart ≤ k ∧ k < destStart + width ∧ k < dest.size) := by
      intro hin
      apply hk 0 (k - destStart) (by omega) (by omega)
      omega
    rw [ih hrest htail, getElem?_copyRow, if_neg hhead]

/-- Rows that do not overlap hold the block afterwards. -/
theorem getElem?_copyRows
    (h : copyRows width src srcStride destStride height srcStart destStart dest = some out)
    (hstride : width ≤ destStride) {row col : Nat} (hrow : row < height) (hcol : col < width) :
    out[destStart + row * destStride + col]? =
      some (src.getD (srcStart + row * srcStride + col) default) := by
  induction height generalizing srcStart destStart dest row with
  | zero => omega
  | succ height ih =>
    obtain ⟨-, hfit, hrest⟩ := copyRows_succ h
    cases row with
    | zero =>
      have hlater : ∀ row' col', row' < height → col' < width →
          destStart + 0 * destStride + col ≠
            destStart + destStride + row' * destStride + col' := by
        intro row' col' _ _
        omega
      rw [getElem?_copyRows_outside hrest hlater, getElem?_copyRow, if_pos (by omega)]
      congr 2
      omega
    | succ row =>
      have hnext := ih hrest (show row < height by omega)
      rw [Nat.succ_mul, Nat.succ_mul]
      rw [show destStart + (row * destStride + destStride) + col =
        destStart + destStride + row * destStride + col by omega, hnext]
      congr 2
      omega

end CopyRows

namespace Image

variable {image image' onto : Image} {x y width height stride : Nat} {src : Array Color}

/-- Rows of the same width give a place to every pair of coordinates, and no two the same. -/
theorem place_inj {imageWidth px py qx qy : Nat} (hp : px < imageWidth) (hq : qx < imageWidth)
    (h : py * imageWidth + px = qy * imageWidth + qx) : px = qx ∧ py = qy := by
  have hmod := congrArg (· % imageWidth) h
  have hdiv := congrArg (· / imageWidth) h
  simp only [Nat.mul_add_mod_self_right, Nat.mod_eq_of_lt hp, Nat.mod_eq_of_lt hq] at hmod
  have hpos : 0 < imageWidth := by omega
  rw [Nat.add_comm, Nat.add_mul_div_right _ _ hpos, Nat.add_comm (qy * imageWidth),
    Nat.add_mul_div_right _ _ hpos, Nat.div_eq_of_lt hp, Nat.div_eq_of_lt hq] at hdiv
  exact ⟨hmod, by omega⟩

theorem place_lt (image : Image) {px py : Nat} (hx : px < image.width) (hy : py < image.height) :
    py * image.width + px < image.pixels.size := by
  have hrows : (py + 1) * image.width ≤ image.height * image.width :=
    Nat.mul_le_mul_right _ hy
  rw [Nat.succ_mul] at hrows
  rw [image.size_pixels, Nat.mul_comm image.width]
  omega

/-! ## Resizing -/

theorem copyRows_overlap (image onto : Image) :
    copyRows (min image.width onto.width) image.pixels image.width onto.width
      (min image.height onto.height) 0 0 onto.pixels = some (image.overlap onto).pixels :=
  (Option.some_get _).symm

theorem get?_overlap (image onto : Image) {px py : Nat} (hx : px < onto.width)
    (hy : py < onto.height) :
    (image.overlap onto).get? px py =
      if px < image.width ∧ py < image.height then image.get? px py else onto.get? px py := by
  have hblit := copyRows_overlap image onto
  have hget : (image.overlap onto).get? px py =
      (image.overlap onto).pixels[py * onto.width + px]? :=
    if_pos ⟨hx, hy⟩
  rw [hget]
  split
  next hin =>
    have hcopied := getElem?_copyRows hblit (Nat.min_le_right ..)
      (show py < min image.height onto.height by omega)
      (show px < min image.width onto.width by omega)
    rw [Nat.zero_add] at hcopied
    rw [hcopied, get?, if_pos hin, Nat.zero_add, Array.getD_eq_getD_getElem?,
      Array.getElem?_eq_getElem (image.place_lt hin.1 hin.2)]
    rfl
  next hout =>
    have hkept : ∀ row col, row < min image.height onto.height →
        col < min image.width onto.width → py * onto.width + px ≠ 0 + row * onto.width + col := by
      intro row col hrow hcol heq
      rw [Nat.zero_add] at heq
      obtain ⟨rfl, rfl⟩ := place_inj hx (by omega) heq
      omega
    rw [getElem?_copyRows_outside hblit hkept, get?, if_pos ⟨hx, hy⟩]

theorem get?_filled (fill : Color) {px py : Nat} (hx : px < width) (hy : py < height) :
    (filled width height fill).get? px py = some fill := by
  have hlt : py * width + px < (filled width height fill).pixels.size :=
    (filled width height fill).place_lt hx hy
  rw [get?, if_pos ⟨hx, hy⟩]
  change (Array.replicate (width * height) fill)[py * width + px]? = some fill
  rw [Array.getElem?_replicate, if_pos]
  simpa [filled] using hlt

theorem resize_ok {image image' : Image} {fill : Color}
    (h : image.resize width height fill = .ok image') :
    image'.width = width ∧ image'.height = height ∧ ∀ px py, px < width → py < height →
      image'.get? px py =
        if px < image.width ∧ py < image.height then image.get? px py else some fill := by
  unfold resize at h
  split at h
  next hsame =>
    obtain ⟨rfl, rfl⟩ := hsame
    cases h
    refine ⟨rfl, rfl, ?_⟩
    intro px py hx hy
    rw [if_pos ⟨hx, hy⟩]
  next =>
    rw [new] at h
    split at h
    next =>
      cases h
      refine ⟨rfl, rfl, ?_⟩
      intro px py hx hy
      rw [get?_overlap _ _ hx hy, get?_filled fill hx hy]
    next => cases h

theorem resize_eq_ok (image : Image) (width height : Nat) (fill : Color)
    (hfits : bufferFits pixelBytes (width * height) = true) :
    ∃ image', image.resize width height fill = .ok image' := by
  rw [resize]
  split
  next => exact ⟨image, rfl⟩
  next =>
    rw [new, if_pos hfits]
    exact ⟨_, rfl⟩

/-! ## Writing a block -/

theorem blitFrom_of_empty (hempty : width = 0 ∨ height = 0) :
    image.blitFrom x y width height src stride = .ok image := by
  rw [blitFrom, if_pos hempty]
  rfl

theorem blitFrom_of_outside (hempty : ¬(width = 0 ∨ height = 0))
    (houtside : ¬(x + width ≤ image.width ∧ y + height ≤ image.height)) :
    image.blitFrom x y width height src stride =
      .error (.outOfBounds x y width height image.width image.height) := by
  rw [blitFrom, if_neg hempty, dif_pos houtside]
  rfl

theorem blitFrom_of_short (hempty : ¬(width = 0 ∨ height = 0))
    (hfits : x + width ≤ image.width ∧ y + height ≤ image.height)
    (hshort : stride < width ∨ src.size < (height - 1) * stride + width) :
    image.blitFrom x y width height src stride =
      .error (.sourceTooSmall src.size width height stride) := by
  rw [blitFrom, if_neg hempty, dif_neg (not_not_intro hfits), dif_pos hshort]
  rfl

theorem blitFrom_of_fits (hempty : ¬(width = 0 ∨ height = 0))
    (hfits : x + width ≤ image.width ∧ y + height ≤ image.height)
    (hlong : ¬(stride < width ∨ src.size < (height - 1) * stride + width)) :
    ∃ image' : Image, image.blitFrom x y width height src stride = .ok image' ∧
      image'.width = image.width ∧ image'.height = image.height ∧
      copyRows width src stride image.width height 0 (y * image.width + x) image.pixels =
        some image'.pixels := by
  rw [blitFrom, if_neg hempty, dif_neg (not_not_intro hfits), dif_neg hlong]
  exact ⟨_, rfl, rfl, rfl, (Option.some_get _).symm⟩

/-- A block that fits the image and its source is written, and nothing else changes. -/
theorem blitFrom_eq_ok (image : Image) (hwidth : 0 < width) (hheight : 0 < height)
    (hx : x + width ≤ image.width) (hy : y + height ≤ image.height) (hstride : width ≤ stride)
    (hsrc : (height - 1) * stride + width ≤ src.size) :
    ∃ image', image.blitFrom x y width height src stride = .ok image' ∧
      image'.width = image.width ∧ image'.height = image.height ∧
      (∀ i j, i < width → j < height →
        image'.get? (x + i) (y + j) = src[j * stride + i]?) ∧
      ∀ px py, ¬(x ≤ px ∧ px < x + width ∧ y ≤ py ∧ py < y + height) →
        image'.get? px py = image.get? px py := by
  have hempty : ¬(width = 0 ∨ height = 0) := by omega
  have hlong : ¬(stride < width ∨ src.size < (height - 1) * stride + width) := by omega
  obtain ⟨image', hcall, hwidth', hheight', hpixels⟩ := blitFrom_of_fits hempty ⟨hx, hy⟩ hlong
  refine ⟨image', hcall, hwidth', hheight', ?_, ?_⟩
  · intro i j hi hj
    have hcopied := getElem?_copyRows hpixels (by omega) hj hi
    have hplace : (y + j) * image.width + (x + i) =
        y * image.width + x + j * image.width + i := by
      rw [Nat.add_mul]
      omega
    have hrow : j * stride ≤ (height - 1) * stride := Nat.mul_le_mul_right _ (by omega)
    have hlt : j * stride + i < src.size := by omega
    rw [get?, hwidth', hheight', if_pos (by constructor <;> omega), hplace, hcopied, Nat.zero_add,
      Array.getD_eq_getD_getElem?, Array.getElem?_eq_getElem hlt]
    rfl
  · intro px py hout
    rw [get?, get?, hwidth', hheight']
    split
    next hin =>
      apply getElem?_copyRows_outside hpixels
      intro row col hrow hcol heq
      have hplace : y * image.width + x + row * image.width + col =
          (y + row) * image.width + (x + col) := by
        rw [Nat.add_mul]
        omega
      rw [hplace] at heq
      obtain ⟨rfl, rfl⟩ := place_inj hin.1 (by omega) heq
      omega
    next => rfl

end Image

end SpriteField
