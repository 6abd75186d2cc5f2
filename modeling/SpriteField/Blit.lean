import SpriteField.Color

/-!
# Copying blocks of pixels

A block of `width × height` pixels is copied row by row between two row-major buffers, each with
its own distance between the starts of two rows.  The copy stops with `none` at the first row that
does not fit one of the buffers.  An empty row still has to start within both of them.
-/

namespace SpriteField

/-- Copies `width` pixels, the last one first. -/
def copyRow (src : Array Color) (srcStart destStart : Nat) : (width : Nat) → Array Color →
    Array Color
  | 0, dest => dest
  | width + 1, dest =>
    copyRow src srcStart destStart width
      (dest.setIfInBounds (destStart + width) (src.getD (srcStart + width) default))

/-- Copies the rows that start at `srcStart`, `srcStart + srcStride`, and so on. -/
def copyRows (width : Nat) (src : Array Color) (srcStride destStride : Nat) :
    (height srcStart destStart : Nat) → Array Color → Option (Array Color)
  | 0, _, _, dest => some dest
  | height + 1, srcStart, destStart, dest =>
    if srcStart + width ≤ src.size ∧ destStart + width ≤ dest.size then
      copyRows width src srcStride destStride height (srcStart + srcStride)
        (destStart + destStride) (copyRow src srcStart destStart width dest)
    else none

/-- Copies the block that starts both buffers. -/
def blit (width height : Nat) (src : Array Color) (srcStride : Nat) (dest : Array Color)
    (destStride : Nat) : Option (Array Color) :=
  copyRows width src srcStride destStride height 0 0 dest

/-- All rows of a block fit a buffer of `size` pixels: there are none, or the last one fits. -/
def RowsFit (width stride height start size : Nat) : Prop :=
  height = 0 ∨ start + (height - 1) * stride + width ≤ size

@[simp] theorem size_copyRow (src : Array Color) (srcStart destStart width : Nat)
    (dest : Array Color) :
    (copyRow src srcStart destStart width dest).size = dest.size := by
  induction width generalizing dest with
  | zero => rfl
  | succ width ih => simp [copyRow, ih]

theorem size_copyRows {width : Nat} {src : Array Color} {srcStride destStride height : Nat}
    {srcStart destStart : Nat} {dest out : Array Color}
    (h : copyRows width src srcStride destStride height srcStart destStart dest = some out) :
    out.size = dest.size := by
  induction height generalizing srcStart destStart dest with
  | zero => simp_all [copyRows]
  | succ height ih =>
    rw [copyRows] at h
    split at h
    · simpa using ih h
    · simp at h

theorem RowsFit.head {width stride height start size : Nat}
    (h : RowsFit width stride (height + 1) start size) : start + width ≤ size := by
  have : start + height * stride + width ≤ size := by simpa [RowsFit] using h
  omega

theorem RowsFit.tail {width stride height start size : Nat}
    (h : RowsFit width stride (height + 1) start size) :
    RowsFit width stride height (start + stride) size := by
  cases height with
  | zero => exact Or.inl rfl
  | succ height =>
    have : start + (height + 1) * stride + width ≤ size := by simpa [RowsFit] using h
    rw [Nat.succ_mul] at this
    exact Or.inr (by simp only [Nat.add_sub_cancel]; omega)

theorem isSome_copyRows {width : Nat} {src : Array Color} {srcStride destStride height : Nat}
    {srcStart destStart : Nat} {dest : Array Color}
    (hsrc : RowsFit width srcStride height srcStart src.size)
    (hdest : RowsFit width destStride height destStart dest.size) :
    (copyRows width src srcStride destStride height srcStart destStart dest).isSome := by
  induction height generalizing srcStart destStart dest with
  | zero => rfl
  | succ height ih =>
    rw [copyRows, if_pos ⟨hsrc.head, hdest.head⟩]
    exact ih hsrc.tail (by simpa using hdest.tail)

end SpriteField
