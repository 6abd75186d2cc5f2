import SpriteField.Proofs.Image.InPlace

/-!
# Blocks between two buffers

The copy of a block is completed if and only if there are no rows or the last one lies in both
buffers.  The rows then hold the block, as they do not overlap, and every other pixel is left alone.

A machine that computes the places in words completes the same copies and halts in all others.  The
size of a buffer is a word, so what overflows one has missed the buffer as well.
-/

namespace SpriteField

variable {width height srcStride destStride srcStart destStart : Nat} {src dest out : Array Color}

/-! ## Completed copies -/

theorem RowsFit.cons {stride start size : Nat} (hhead : start + width ≤ size)
    (htail : RowsFit width stride height (start + stride) size) :
    RowsFit width stride (height + 1) start size := by
  refine Or.inr ?_
  rw [Nat.add_sub_cancel]
  rcases htail with rfl | hlast
  · omega
  · cases height with
    | zero => omega
    | succ height =>
      rw [Nat.add_sub_cancel] at hlast
      rw [Nat.succ_mul]
      omega

theorem rowsFit_of_copyRows
    (h : copyRows width src srcStride destStride height srcStart destStart dest = some out) :
    RowsFit width srcStride height srcStart src.size ∧
      RowsFit width destStride height destStart dest.size := by
  induction height generalizing srcStart destStart dest with
  | zero => exact ⟨Or.inl rfl, Or.inl rfl⟩
  | succ height ih =>
    obtain ⟨hsrc, hdest, hrest⟩ := copyRows_succ h
    obtain ⟨hsrcTail, hdestTail⟩ := ih hrest
    rw [size_copyRow] at hdestTail
    exact ⟨hsrcTail.cons hsrc, hdestTail.cons hdest⟩

theorem isSome_blit_iff :
    (blit width height src srcStride dest destStride).isSome ↔
      RowsFit width srcStride height 0 src.size ∧ RowsFit width destStride height 0 dest.size := by
  constructor
  · intro h
    obtain ⟨out, hout⟩ := Option.isSome_iff_exists.mp h
    exact rowsFit_of_copyRows hout
  · rintro ⟨hsrc, hdest⟩
    exact isSome_copyRows hsrc hdest

/-! ## In words -/

namespace Image

/-- The machine leaves a copy that is completed, and halts where it is not. -/
def AsCopied (copied : Option (Array Color))
    (answer : EStateM.Result Stop (Array Color) PUnit) : Prop :=
  match copied with
  | some out => answer = .ok ⟨⟩ out
  | none => ∃ dest, answer = .error .halted dest

theorem forM_writeRow_asCopied (width srcStride destStride : Nat) (hsrc : src.size ≤ maxWord)
    (hdest : dest.size ≤ maxWord) (row left : Nat) :
    AsCopied
      (copyRows width src srcStride destStride left (row * srcStride) (row * destStride) dest)
      ((List.range' row left).forM (writeRow 0 width src srcStride destStride) dest) := by
  induction left generalizing row dest with
  | zero => rfl
  | succ left ih =>
    rw [List.range'_succ, copyRows]
    change AsCopied _ ((writeRow 0 width src srcStride destStride row >>= fun _ => _) dest)
    by_cases hfits : row * srcStride + width ≤ src.size ∧ row * destStride + width ≤ dest.size
    · have hrow : writeRow 0 width src srcStride destStride row dest =
          .ok ⟨⟩ (copyRow src (row * srcStride) (row * destStride) width dest) := by
        rw [writeRow_eq hfits.1 (by omega) (by omega) (by omega), Nat.zero_add]
      rw [if_pos hfits, bind_of_ok hrow, ← Nat.succ_mul, ← Nat.succ_mul]
      exact ih (by rwa [size_copyRow]) (row + 1)
    · have hrow : writeRow 0 width src srcStride destStride row dest = .error .halted dest := by
        rw [writeRow_eq_ite, if_neg (by omega)]
      rw [if_neg hfits, bind_of_error hrow]
      exact ⟨dest, rfl⟩

end Image

/-! ## Exactly the block -/

/-- What copying the block that starts both buffers comes to. -/
structure CopiesBlock (width height : Nat) (src : Array Color) (srcStride : Nat)
    (dest : Array Color) (destStride : Nat) : Prop where
  completes_iff : (blit width height src srcStride dest destStride).isSome ↔
    height = 0 ∨ ((height - 1) * srcStride + width ≤ src.size ∧
      (height - 1) * destStride + width ≤ dest.size)
  size_eq : ∀ out, blit width height src srcStride dest destStride = some out →
    out.size = dest.size
  copied : ∀ out, blit width height src srcStride dest destStride = some out →
    ∀ row col, row < height → col < width → ∃ color,
      src[row * srcStride + col]? = some color ∧ out[row * destStride + col]? = some color
  kept : ∀ out, blit width height src srcStride dest destStride = some out → ∀ place : Nat,
    (∀ row col, row < height → col < width → place ≠ row * destStride + col) →
      out[place]? = dest[place]?
  inWords : src.size ≤ Image.maxWord → dest.size ≤ Image.maxWord →
    Image.AsCopied (blit width height src srcStride dest destStride)
      (Image.writeRows 0 width height src srcStride destStride dest)

/-- A block is copied exactly if its last row lies in both buffers, and not completed otherwise. -/
theorem blit_copiesBlock (src dest : Array Color) (hsrcStride : width ≤ srcStride)
    (hdestStride : width ≤ destStride) :
    CopiesBlock width height src srcStride dest destStride where
  completes_iff := by
    rw [isSome_blit_iff, RowsFit, RowsFit, Nat.zero_add, Nat.zero_add, or_and_left]
  size_eq out := size_copyRows
  copied out hout row col hrow hcol := by
    have hcopied := getElem?_copyRows hout hdestStride hrow hcol
    have hfits := (rowsFit_of_copyRows hout).1.row hrow
    rw [Nat.zero_add] at hcopied hfits
    have hlt : row * srcStride + col < src.size := by omega
    refine ⟨src[row * srcStride + col], Array.getElem?_eq_getElem hlt, ?_⟩
    rw [hcopied, Nat.zero_add, Array.getD_eq_getD_getElem?, Array.getElem?_eq_getElem hlt]
    rfl
  kept out hout place hplace := by
    apply getElem?_copyRows_outside hout
    simpa using hplace
  inWords hsrc hdest := by
    have hrows :=
      Image.forM_writeRow_asCopied width srcStride destStride hsrc hdest 0 height
    rw [Nat.zero_mul, Nat.zero_mul, ← List.range_eq_range'] at hrows
    rw [Image.writeRows, Image.ensure_bind,
      if_pos (decide_eq_true ⟨hsrcStride, hdestStride⟩)]
    exact hrows

/-- The last rows of both buffers end with the block.  A buffer that ends before is too short, also for
rows without pixels. -/
theorem copiesBlock_short_rows :
    let src := #[.white, .black, .black, .white]
    let dest := Array.replicate 5 .transparent
    2 ≤ 2 ∧ 2 ≤ 3 ∧ CopiesBlock 2 2 src 2 dest 3 ∧
      blit 2 2 src 2 dest 3 = some #[.white, .black, .transparent, .black, .white] ∧
      blit 2 2 src 2 dest.pop 3 = none ∧ blit 0 3 src 2 dest 3 = none := by
  intro src dest
  have hsrc : 2 ≤ 2 := by decide
  have hdest : 2 ≤ 3 := by decide
  exact ⟨hsrc, hdest, blit_copiesBlock src dest hsrc hdest, rfl, rfl, rfl⟩

end SpriteField
