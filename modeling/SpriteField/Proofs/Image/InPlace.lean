import SpriteField.Proofs.Image
import SpriteField.Proofs.Refusal

/-!
# Rows written into a buffer

A machine computes the places of pixels in words of 64 bits, and it stops where a result does not
fit one, where a range does not lie in its buffer, and where an assertion fails.  The rows of a block
that fits both of its buffers are written without any of this, if words tell where the last one ends
in either.
-/

namespace SpriteField
namespace Image

variable {σ β : Type}

/-- Why a program does not go on: it refuses what it was asked for, or it is halted by a check. -/
inductive Stop where
  | refused (error : ImageError)
  | halted
deriving DecidableEq

def maxWord : Nat := 2 ^ 64 - 1

/-- The result of a computation, where a word holds it. -/
def word (n : Nat) : EStateM Stop σ Nat :=
  if n ≤ maxWord then pure n else throw .halted

def minus (a b : Nat) : EStateM Stop σ Nat :=
  if b ≤ a then pure (a - b) else throw .halted

def ensure (holds : Bool) : EStateM Stop σ PUnit :=
  if holds then pure ⟨⟩ else throw .halted

theorem word_of_le {n : Nat} (h : n ≤ maxWord) (state : σ) : word n state = .ok n state := by
  rw [word, if_pos h]
  rfl

theorem minus_of_le {a b : Nat} (h : b ≤ a) (state : σ) :
    minus a b state = .ok (a - b) state := by
  rw [minus, if_pos h]
  rfl

theorem ensure_of {holds : Bool} (h : holds = true) (state : σ) :
    ensure holds state = .ok ⟨⟩ state := by
  rw [ensure, if_pos h]
  rfl

theorem word_bind (n : Nat) (next : Nat → EStateM Stop σ β) (state : σ) :
    (word n >>= next) state = if n ≤ maxWord then next n state else .error .halted state := by
  unfold word
  split
  · rfl
  · rfl

theorem ensure_bind (holds : Bool) (next : PUnit → EStateM Stop σ β) (state : σ) :
    (ensure holds >>= next) state = if holds then next ⟨⟩ state else .error .halted state := by
  cases holds with
  | false => rfl
  | true => rfl

/-- Writes one row of a block into the part of a buffer that begins at `offset`. -/
def writeRow (offset width : Nat) (src : Array Color) (srcStride destStride row : Nat) :
    EStateM Stop (Array Color) PUnit := do
  let srcStart ← word (row * srcStride)
  let destStart ← word (row * destStride)
  let destStop ← word (destStart + width)
  ensure (destStop ≤ (← get).size - offset)
  let srcStop ← word (srcStart + width)
  ensure (srcStop ≤ src.size)
  modify (copyRow src srcStart (offset + destStart) width)

def writeRows (offset width height : Nat) (src : Array Color) (srcStride destStride : Nat) :
    EStateM Stop (Array Color) PUnit := do
  ensure (width ≤ srcStride ∧ width ≤ destStride)
  (List.range height).forM (writeRow offset width src srcStride destStride)

/-! ## Where rows lie -/

theorem mul_add_le_maxWord {a b c : Nat} (ha : a < 2 ^ 32) (hb : b < 2 ^ 32) (hc : c < 2 ^ 32) :
    a * b + c ≤ maxWord := by
  have hmul : a * b ≤ (2 ^ 32 - 1) * (2 ^ 32 - 1) := Nat.mul_le_mul (by omega) (by omega)
  rw [maxWord]
  omega

theorem rowsFit_maxWord {width stride height : Nat} (hwidth : width < 2 ^ 32)
    (hstride : stride < 2 ^ 32) (hheight : height < 2 ^ 32) :
    RowsFit width stride height 0 maxWord :=
  .inr (by rw [Nat.zero_add]; exact mul_add_le_maxWord (by omega) hstride hwidth)

variable {offset width height srcStride destStride row : Nat} {src dest out : Array Color}

/-- A row is written if its places are words and lie in both buffers.  Otherwise the machine halts
before it has written any of it. -/
theorem writeRow_eq_ite : writeRow offset width src srcStride destStride row dest =
    if row * srcStride ≤ maxWord ∧ row * destStride ≤ maxWord ∧
        row * destStride + width ≤ maxWord ∧ row * destStride + width ≤ dest.size - offset ∧
        row * srcStride + width ≤ maxWord ∧ row * srcStride + width ≤ src.size then
      .ok ⟨⟩ (copyRow src (row * srcStride) (offset + row * destStride) width dest)
    else .error .halted dest := by
  unfold writeRow
  simp only [word_bind, get_bind, ensure_bind, decide_eq_true_eq, ite_and]
  rfl

theorem writeRow_eq (hsrc : row * srcStride + width ≤ src.size)
    (hdest : offset + row * destStride + width ≤ dest.size)
    (hsrcWord : row * srcStride + width ≤ maxWord)
    (hdestWord : row * destStride + width ≤ maxWord) :
    writeRow offset width src srcStride destStride row dest =
      .ok ⟨⟩ (copyRow src (row * srcStride) (offset + row * destStride) width dest) := by
  rw [writeRow_eq_ite, if_pos (by omega)]

/-- The rows to write are the last ones, and written in turn they make `out` of the buffer. -/
def WritingRows (offset width height : Nat) (src : Array Color) (srcStride destStride : Nat)
    (out : Array Color) (rows : List Nat) (dest : Array Color) : Prop :=
  ∃ row left, rows = List.range' row left ∧ row + left = height ∧
    copyRows width src srcStride destStride left (row * srcStride) (offset + row * destStride)
      dest = some out

theorem WritingRows.step {rows : List Nat}
    (hsrc : RowsFit width srcStride height 0 maxWord)
    (hdest : RowsFit width destStride height 0 maxWord)
    (h : WritingRows offset width height src srcStride destStride out (row :: rows) dest) :
    ∃ dest', writeRow offset width src srcStride destStride row dest = .ok ⟨⟩ dest' ∧
      WritingRows offset width height src srcStride destStride out rows dest' := by
  obtain ⟨first, left, hrows, hleft, hcopied⟩ := h
  cases left with
  | zero => cases hrows
  | succ left =>
    rw [List.range'_succ] at hrows
    obtain ⟨rfl, rfl⟩ := List.cons.inj hrows
    obtain ⟨hsrcFits, hdestFits, hrest⟩ := copyRows_succ hcopied
    have hrow : row < height := by omega
    have hsrcWord := hsrc.row hrow
    have hdestWord := hdest.row hrow
    rw [Nat.zero_add] at hsrcWord hdestWord
    refine ⟨_, writeRow_eq hsrcFits hdestFits hsrcWord hdestWord, row + 1, left, rfl, by omega, ?_⟩
    rwa [Nat.succ_mul, Nat.succ_mul, ← Nat.add_assoc]

theorem writeRows_eq
    (hcopied : copyRows width src srcStride destStride height 0 offset dest = some out)
    (hsrcStride : width ≤ srcStride) (hdestStride : width ≤ destStride)
    (hsrc : RowsFit width srcStride height 0 maxWord)
    (hdest : RowsFit width destStride height 0 maxWord) :
    writeRows offset width height src srcStride destStride dest = .ok ⟨⟩ out := by
  have hstart : WritingRows offset width height src srcStride destStride out
      (List.range height) dest :=
    ⟨0, height, List.range_eq_range', Nat.zero_add height, by simpa using hcopied⟩
  obtain ⟨final, hwritten, row, left, hnone, -, hout⟩ :=
    forM_of_step (WritingRows.step hsrc hdest) hstart
  obtain rfl : left = 0 := List.range'_eq_nil_iff.mp hnone.symm
  rw [copyRows] at hout
  rw [writeRows, bind_of_ok (ensure_of (decide_eq_true ⟨hsrcStride, hdestStride⟩) _), hwritten,
    Option.some.inj hout]

/-! ## Images in place -/

/-- An image as a machine holds it, whether or not it has as many pixels as its size asks for. -/
structure Frame where
  width : Nat
  height : Nat
  pixels : Array Color
deriving DecidableEq

def frame (image : Image) : Frame :=
  ⟨image.width, image.height, image.pixels⟩

def onPixels (program : EStateM Stop (Array Color) PUnit) : EStateM Stop Frame PUnit :=
  fun frame =>
    match program frame.pixels with
    | .ok _ pixels => .ok ⟨⟩ { frame with pixels }
    | .error stop pixels => .error stop { frame with pixels }

/-- Runs a program on a buffer of its own, and answers with the buffer. -/
def onBuffer (buffer : Array Color) (program : EStateM Stop (Array Color) PUnit) :
    EStateM Stop σ (Array Color) :=
  fun state =>
    match program buffer with
    | .ok _ buffer' => .ok buffer' state
    | .error stop _ => .error stop state

theorem onPixels_of_ok {program : EStateM Stop (Array Color) PUnit} {frame : Frame}
    {pixels : Array Color} (h : program frame.pixels = .ok ⟨⟩ pixels) :
    onPixels program frame = .ok ⟨⟩ { frame with pixels } := by
  rw [onPixels, h]

theorem onBuffer_of_ok {program : EStateM Stop (Array Color) PUnit} {buffer buffer' : Array Color}
    (h : program buffer = .ok ⟨⟩ buffer') (state : σ) :
    onBuffer buffer program state = .ok buffer' state := by
  rw [onBuffer, h]

/-- The outcome in place of a call that makes a new image or is refused: a refused call leaves the
image as it was. -/
def answered (image : Image) : Except ImageError Image → EStateM.Result Stop Frame PUnit
  | .ok image' => .ok ⟨⟩ image'.frame
  | .error error => .error (.refused error) image.frame

end Image
end SpriteField
