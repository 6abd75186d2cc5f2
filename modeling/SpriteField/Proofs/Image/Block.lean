import SpriteField.Proofs.Image.InPlace

/-!
# Writing a block

A block that fits the image and its source is written exactly where it was asked for, and every
other request is refused and changes nothing.  In place, with all places computed in words, nothing
else can happen, up to the largest sizes that 32 bits can tell.
-/

namespace SpriteField
namespace Image

variable {image : Image} {x y width height stride : Nat} {src : Array Color}

/-! ## In place -/

/-- A span lies within a limit; a sum of 32-bit words that is none itself lies within nothing. -/
def spanFits (start length limit : Nat) : Bool :=
  start + length < 2 ^ 32 ∧ start + length ≤ limit

def blitInPlace (x y width height : Nat) (src : Array Color) (stride : Nat) :
    EStateM Stop Frame PUnit := do
  if width = 0 ∨ height = 0 then return ⟨⟩
  else
    let frame ← get
    if spanFits x width frame.width ∧ spanFits y height frame.height then
      let needed ← word ((← word ((← minus height 1) * stride)) + width)
      if stride < width ∨ src.size < needed then
        throw (.refused (.sourceTooSmall src.size width height stride))
      else
        let offset ← word ((← word (y * frame.width)) + x)
        ensure (offset ≤ frame.pixels.size)
        onPixels (writeRows offset width height src stride frame.width)
    else
      throw (.refused (.outOfBounds x y width height frame.width frame.height))

theorem spanFits_iff {start length limit : Nat} (hlimit : limit < 2 ^ 32) :
    spanFits start length limit = true ↔ start + length ≤ limit := by
  rw [spanFits, decide_eq_true_iff]
  exact ⟨And.right, fun h => ⟨by omega, h⟩⟩

theorem blitInPlace_eq (hwidth : image.width < 2 ^ 32) (hheight : image.height < 2 ^ 32)
    (hstride : stride < 2 ^ 32) :
    blitInPlace x y width height src stride image.frame =
      answered image (image.blitFrom x y width height src stride) := by
  have hspans : spanFits x width image.frame.width ∧ spanFits y height image.frame.height ↔
      x + width ≤ image.width ∧ y + height ≤ image.height :=
    and_congr (spanFits_iff hwidth) (spanFits_iff hheight)
  rw [blitInPlace]
  by_cases hempty : width = 0 ∨ height = 0
  · rw [if_pos hempty, blitFrom_of_empty hempty]
    rfl
  rw [if_neg hempty, get_bind]
  by_cases hfits : x + width ≤ image.width ∧ y + height ≤ image.height
  · have hneeded : (height - 1) * stride + width ≤ maxWord :=
      mul_add_le_maxWord (by omega) hstride (by omega)
    have hoffset : y * image.frame.width + x ≤ maxWord :=
      mul_add_le_maxWord (by omega) hwidth (by omega)
    rw [if_pos (hspans.mpr hfits), bind_of_ok (minus_of_le (by omega) _),
      bind_of_ok (word_of_le (by omega) _), bind_of_ok (word_of_le hneeded _)]
    by_cases hshort : stride < width ∨ src.size < (height - 1) * stride + width
    · rw [if_pos hshort, blitFrom_of_short hempty hfits hshort]
      rfl
    · obtain ⟨image', hcall, hwidth', hheight', hcopied⟩ := blitFrom_of_fits hempty hfits hshort
      have hplace : y * image.frame.width + x ≤ image.frame.pixels.size := by
        have hrows := (rowsFit hfits.1 hfits.2).resolve_left (by omega)
        simp only [frame, image.size_pixels]
        omega
      have hwritten : writeRows (y * image.frame.width + x) width height src stride
          image.frame.width image.frame.pixels = .ok ⟨⟩ image'.pixels :=
        writeRows_eq hcopied (by omega) (by simp only [frame]; omega)
          (rowsFit_maxWord (by omega) hstride (by omega))
          (rowsFit_maxWord (by omega) hwidth (by omega))
      rw [if_neg hshort, bind_of_ok (word_of_le (by omega) _), bind_of_ok (word_of_le hoffset _),
        bind_of_ok (ensure_of (decide_eq_true hplace) _), onPixels_of_ok hwritten, hcall, answered,
        frame, frame, hwidth', hheight']
  · rw [if_neg (mt hspans.mp hfits), blitFrom_of_outside hempty hfits]
    rfl

/-! ## Exactly the block -/

/-- What writing a block comes to.  A refusal leaves the image as it was. -/
structure WritesBlock (image : Image) (x y width height : Nat) (src : Array Color) (stride : Nat)
    (answer : EStateM.Result Stop Frame PUnit) : Prop where
  empty : width = 0 ∨ height = 0 → answer = .ok ⟨⟩ image.frame
  outside : 0 < width → 0 < height →
    (answer = .error (.refused (.outOfBounds x y width height image.width image.height))
        image.frame ↔
      image.width < x + width ∨ image.height < y + height)
  short : 0 < width → 0 < height → x + width ≤ image.width → y + height ≤ image.height →
    (answer = .error (.refused (.sourceTooSmall src.size width height stride)) image.frame ↔
      stride < width ∨ src.size < (height - 1) * stride + width)
  written : 0 < width → 0 < height → x + width ≤ image.width → y + height ≤ image.height →
    width ≤ stride → (height - 1) * stride + width ≤ src.size →
    ∃ image' : Image, answer = .ok ⟨⟩ image'.frame ∧ image'.width = image.width ∧
      image'.height = image.height ∧
      ∀ i j, if x ≤ i ∧ i < x + width ∧ y ≤ j ∧ j < y + height then
          ∃ color, src[(j - y) * stride + (i - x)]? = some color ∧ image'.get? i j = some color
        else image'.get? i j = image.get? i j

theorem writesBlock_answered (image : Image) (x y width height : Nat) (src : Array Color)
    (stride : Nat) :
    WritesBlock image x y width height src stride
      (answered image (image.blitFrom x y width height src stride)) where
  empty := by
    intro hempty
    rw [blitFrom_of_empty hempty]
    rfl
  outside := by
    intro hwidth hheight
    have hempty : ¬(width = 0 ∨ height = 0) := by omega
    by_cases hfits : x + width ≤ image.width ∧ y + height ≤ image.height
    · refine iff_of_false ?_ (by omega)
      by_cases hshort : stride < width ∨ src.size < (height - 1) * stride + width
      · rw [blitFrom_of_short hempty hfits hshort]
        nofun
      · obtain ⟨image', hcall, -⟩ := blitFrom_of_fits hempty hfits hshort
        rw [hcall]
        nofun
    · rw [blitFrom_of_outside hempty hfits]
      exact iff_of_true rfl (by omega)
  short := by
    intro hwidth hheight hx hy
    have hempty : ¬(width = 0 ∨ height = 0) := by omega
    by_cases hshort : stride < width ∨ src.size < (height - 1) * stride + width
    · rw [blitFrom_of_short hempty ⟨hx, hy⟩ hshort]
      exact iff_of_true rfl hshort
    · obtain ⟨image', hcall, -⟩ := blitFrom_of_fits hempty ⟨hx, hy⟩ hshort
      rw [hcall]
      exact iff_of_false nofun hshort
  written := by
    intro hwidth hheight hx hy hstride hsrc
    obtain ⟨image', hcall, hwidth', hheight', hblock, hrest⟩ :=
      image.blitFrom_eq_ok hwidth hheight hx hy hstride hsrc
    refine ⟨image', by rw [hcall]; rfl, hwidth', hheight', fun i j => ?_⟩
    split
    next hin =>
      obtain ⟨i, rfl⟩ := Nat.exists_eq_add_of_le hin.1
      obtain ⟨j, rfl⟩ := Nat.exists_eq_add_of_le hin.2.2.1
      have hrow : j * stride ≤ (height - 1) * stride := Nat.mul_le_mul_right _ (by omega)
      have hlt : j * stride + i < src.size := by omega
      rw [Nat.add_sub_cancel_left, Nat.add_sub_cancel_left, hblock i j (by omega) (by omega),
        Array.getElem?_eq_getElem hlt]
      exact ⟨_, rfl, rfl⟩
    next hout => exact hrest i j hout

/-- In place, a block is written exactly, or the call is refused and changes nothing.  No place
leaves its buffer and no word overflows. -/
theorem blitInPlace_writesBlock (image : Image) (x y width height : Nat) (src : Array Color)
    (stride : Nat) (hwidth : image.width < 2 ^ 32) (hheight : image.height < 2 ^ 32)
    (hstride : stride < 2 ^ 32) :
    WritesBlock image x y width height src stride
        (blitInPlace x y width height src stride image.frame) ∧
      blitInPlace x y width height src stride image.frame =
        answered image (image.blitFrom x y width height src stride) := by
  have heq : blitInPlace x y width height src stride image.frame =
      answered image (image.blitFrom x y width height src stride) :=
    blitInPlace_eq hwidth hheight hstride
  rw [heq]
  exact ⟨writesBlock_answered .., rfl⟩

/-- The last row of the source ends with the block, in an image that is wider than the block. -/
theorem writesBlock_beside_border :
    let image := filled 3 2 .transparent
    let src := #[.white, .black, .transparent, .black, .white]
    WritesBlock image 1 0 2 2 src 3 (blitInPlace 1 0 2 2 src 3 image.frame) ∧
      blitInPlace 1 0 2 2 src 3 image.frame =
        .ok ⟨⟩ ⟨3, 2, #[.transparent, .white, .black, .transparent, .black, .white]⟩ :=
  ⟨(blitInPlace_writesBlock _ 1 0 2 2 _ 3 (by decide) (by decide) (by decide)).1, rfl⟩

end Image
end SpriteField
