import SpriteField.Proofs.Atlas.Box
import SpriteField.Proofs.Bucket
import SpriteField.Proofs.Image

/-!
# Tiling the shelves

Every growth adds a shelf below the image.  At any time a cell of a shelf lies in exactly one
rectangle, of a region or of the free list, and a cell outside of all shelves lies in none: for every
cell the two lists together have as many rectangles around it as there are shelves.
-/

namespace SpriteField

/-! ## Shelves -/

/-- What one growth adds to an atlas: rows from `top` on and above `bottom`, columns from 0 on. -/
structure Shelf where
  width : Nat
  top : Nat
  bottom : Nat

def Shelf.hasCell (s : Shelf) (i j : Int) : Bool :=
  0 ≤ i && i < s.width && (s.top ≤ j && j < s.bottom)

def Shelf.box (s : Shelf) : Box :=
  ⟨0, s.top, s.width, s.bottom⟩

/-- The shelves follow each other without a gap from row `top` down to row `bottom`. -/
def Stacked : Nat → List Shelf → Nat → Prop
  | top, [], bottom => top = bottom
  | top, s :: shelves, bottom => s.top = top ∧ s.top < s.bottom ∧ Stacked s.bottom shelves bottom

namespace Stacked

variable {top bottom bottom' : Nat} {shelves : List Shelf}

theorem concat (h : Stacked top shelves bottom) (width : Nat) (hlt : bottom < bottom') :
    Stacked top (shelves ++ [⟨width, bottom, bottom'⟩]) bottom' := by
  induction shelves generalizing top with
  | nil =>
    rw [Stacked] at h
    simp [Stacked, h, hlt]
  | cons s shelves ih =>
    obtain ⟨htop, hrows, hrest⟩ := h
    exact ⟨htop, hrows, ih hrest⟩

theorem top_le_bottom (h : Stacked top shelves bottom) : top ≤ bottom := by
  induction shelves generalizing top with
  | nil =>
    rw [Stacked] at h
    omega
  | cons s shelves ih =>
    obtain ⟨htop, hrows, hrest⟩ := h
    have hle := ih hrest
    omega

theorem top_le (h : Stacked top shelves bottom) {s : Shelf} (hs : s ∈ shelves) : top ≤ s.top := by
  induction shelves generalizing top with
  | nil => cases hs
  | cons s' shelves ih =>
    obtain ⟨htop, hrows, hrest⟩ := h
    rcases List.mem_cons.mp hs with rfl | hs
    · omega
    · have hle := ih hrest hs
      omega

theorem countP_hasCell (h : Stacked top shelves bottom) (i j : Int) :
    shelves.countP (·.hasCell i j) = if ∃ s ∈ shelves, s.hasCell i j = true then 1 else 0 := by
  induction shelves generalizing top with
  | nil => simp
  | cons s shelves ih =>
    obtain ⟨htop, hrows, hrest⟩ := h
    rw [List.countP_cons, ih hrest]
    by_cases hcell : s.hasCell i j = true
    · have hnone : ¬∃ s' ∈ shelves, s'.hasCell i j = true := by
        rintro ⟨s', hs', hcell'⟩
        have hle := hrest.top_le hs'
        simp only [Shelf.hasCell, Bool.and_eq_true, decide_eq_true_eq] at hcell hcell'
        omega
      rw [if_neg hnone, if_pos hcell, if_pos ⟨s, List.mem_cons_self, hcell⟩]
    · simp [hcell]

end Stacked

namespace Atlas

def Boxed (rects : Array Rect) (width height : Nat) : Prop :=
  ∀ r ∈ rects, ∃ b : Box, r = b.rect ∧ b.Within width height

/-- What is true of an atlas between two calls, given its growths so far. -/
structure Packed (atlas : Atlas) (shelves : List Shelf) : Prop where
  limits : atlas.limits.maxWidth ≤ 2 ^ 24 ∧ atlas.limits.maxHeight ≤ 2 ^ 24
  width_pos : 0 < atlas.image.width
  width_le : atlas.image.width ≤ 2 ^ 24
  height_le : atlas.image.height ≤ 2 ^ 24
  stacked : Stacked 1 shelves atlas.image.height
  regions : Boxed atlas.regions atlas.image.width atlas.image.height
  free : Boxed atlas.free atlas.image.width atlas.image.height
  freeArea : ∀ r ∈ atlas.free, r.hasArea = true
  tiles : ∀ i j, atlas.regions.countP (·.hasCell i j) + atlas.free.countP (·.hasCell i j) =
    shelves.countP (·.hasCell i j)

theorem Boxed.mono {rects : Array Rect} {width height width' height' : Nat}
    (h : Boxed rects width height) (hwidth : width ≤ width') (hheight : height ≤ height') :
    Boxed rects width' height' := by
  intro r hr
  obtain ⟨b, hb, hin⟩ := h r hr
  exact ⟨b, hb, hin.mono hwidth hheight⟩

theorem boxed_zero (width height : Nat) :
    ∃ b : Box, Rect.zero = b.rect ∧ b.Within width height :=
  ⟨⟨0, 0, 0, 0⟩, rfl, ⟨le_rfl, Nat.zero_le _, le_rfl, Nat.zero_le _⟩⟩

theorem boxed_collapsed {r : Rect} {width height : Nat}
    (h : ∃ b : Box, r = b.rect ∧ b.Within width height) :
    ∃ b : Box, r.collapsed = b.rect ∧ b.Within width height := by
  obtain ⟨b, rfl, hin⟩ := h
  exact ⟨⟨b.x1, b.y1, b.x1, b.y1⟩, rfl,
    ⟨le_rfl, hin.left_le.trans hin.right_le, le_rfl, hin.top_le.trans hin.bottom_le⟩⟩

theorem hasCell_of_boxed {r : Rect} {width height : Nat}
    (h : ∃ b : Box, r = b.rect ∧ b.Within width height) (hwidth : width ≤ 2 ^ 24)
    (hheight : height ≤ 2 ^ 24) (harea : r.hasArea = false) (i j : Int) :
    r.hasCell i j = false := by
  obtain ⟨b, rfl, hin⟩ := h
  exact Box.hasCell_of_not_hasArea (hin.mono hwidth hheight) harea i j

theorem hasArea_collapsed {r : Rect} {width height : Nat}
    (h : ∃ b : Box, r = b.rect ∧ b.Within width height) (hwidth : width ≤ 2 ^ 24)
    (hheight : height ≤ 2 ^ 24) : r.collapsed.hasArea = false := by
  obtain ⟨b, rfl, hin⟩ := h
  have hpoint : (Box.mk b.x1 b.y1 b.x1 b.y1).Within (2 ^ 24) (2 ^ 24) :=
    ⟨le_rfl, Box.x1_le (hin.mono hwidth hheight), le_rfl, Box.y1_le (hin.mono hwidth hheight)⟩
  have harea := Box.hasArea_rect hpoint
  rw [Bool.eq_false_iff]
  intro hpositive
  exact lt_irrefl _ (harea.mp hpositive).1

theorem countP_setIfInBounds (rects : Array Rect) {i : Nat} {old : Rect} (new : Rect)
    (p : Rect → Bool) (hold : rects[i]? = some old) :
    (rects.setIfInBounds i new).countP p + (p old).toNat = rects.countP p + (p new).toNat := by
  obtain ⟨hi, rfl⟩ := Array.getElem?_eq_some_iff.mp hold
  have htoNat : ∀ r, (if p r = true then 1 else 0) = (p r).toNat := by
    intro r
    cases p r <;> rfl
  have hle := Array.boole_getElem_le_countP (p := p) hi
  rw [Array.setIfInBounds, dif_pos hi, Array.countP_set hi, htoNat, htoNat]
  rw [htoNat] at hle
  omega

theorem countP_push_toNat (rects : Array Rect) (r : Rect) (p : Rect → Bool) :
    (rects.push r).countP p = rects.countP p + (p r).toNat := by
  rw [Array.countP_push]
  cases p r <;> rfl

/-! ## Cutting -/

section Cut

variable {free : Array Rect} {i width height : Nat} {b : Box}

theorem mem_pushFree {r rect : Rect} :
    r ∈ pushFree free rect ↔ r ∈ free ∨ (r = rect ∧ r.hasArea = true) := by
  unfold pushFree
  split
  next harea =>
    rw [Array.mem_push]
    exact or_congr_right ⟨fun heq => ⟨heq, heq ▸ harea⟩, And.left⟩
  next hempty =>
    refine ⟨Or.inl, Or.rec id ?_⟩
    rintro ⟨rfl, harea⟩
    exact absurd harea hempty

theorem size_le_pushFree (free : Array Rect) (rect : Rect) :
    free.size ≤ (pushFree free rect).size := by
  unfold pushFree
  split
  · simp
  · exact le_rfl

theorem size_pushFree_le (free : Array Rect) (rect : Rect) :
    (pushFree free rect).size ≤ free.size + 1 := by
  unfold pushFree
  split
  · simp
  · omega

theorem pushFree_of_not_hasArea (free : Array Rect) {rect : Rect} (h : rect.hasArea = false) :
    pushFree free rect = free :=
  if_neg (Bool.eq_false_iff.mp h)

theorem getElem?_pushFree (rect : Rect) (hi : i < free.size) :
    (pushFree free rect)[i]? = free[i]? := by
  unfold pushFree
  split
  · rw [Array.getElem?_push, if_neg (by omega)]
  · rfl

theorem countP_pushFree (hb : b.Within (2 ^ 24) (2 ^ 24)) (ci cj : Int) :
    (pushFree free b.rect).countP (·.hasCell ci cj) =
      free.countP (·.hasCell ci cj) + (b.rect.hasCell ci cj).toNat := by
  unfold pushFree
  split
  · exact countP_push_toNat free b.rect _
  next harea =>
    rw [Box.hasCell_of_not_hasArea hb (Bool.eq_false_iff.mpr harea)]
    rfl

theorem countP_swapPop (rects : Array Rect) {r : Rect} (hr : rects[i]? = some r)
    (p : Rect → Bool) : (swapPop rects i).countP p + (p r).toNat = rects.countP p := by
  obtain ⟨hi, rfl⟩ := Array.getElem?_eq_some_iff.mp hr
  have hperm : (rects[i] :: (swapPop rects i).toList).Perm rects.toList :=
    ((toList_swapPop_perm hi).cons rects[i]).trans (List.getElem_cons_eraseIdx_perm hi)
  rw [← Array.countP_toList, ← Array.countP_toList, ← hperm.countP_eq p, List.countP_cons]
  cases p rects[i] <;> rfl

variable (hi : free[i]? = some b.rect) (hb : b.Within (2 ^ 24) (2 ^ 24))
  (hright : b.x1 + width ≤ b.x2) (hbottom : b.y1 + height ≤ b.y2)
include hi hb hright hbottom

theorem cut_eq : cut i width height free =
    swapPop (pushFree (pushFree free (b.strip width height).rect) (b.remainder height).rect) i := by
  have hget : free.getD i .zero = b.rect := by
    rw [Array.getD_eq_getD_getElem?, hi]
    rfl
  rw [cut, hget, Box.strip_rect hright hbottom hb, Box.remainder_rect hbottom hb]

/-- Of the cells of the rectangle that is cut, the free list loses those of the block. -/
theorem countP_cut (ci cj : Int) :
    (cut i width height free).countP (·.hasCell ci cj) +
      ((b.taken width height).rect.hasCell ci cj).toNat = free.countP (·.hasCell ci cj) := by
  have hlt : i < free.size := (Array.getElem?_eq_some_iff.mp hi).1
  have hlt' := hlt.trans_le (size_le_pushFree free (b.strip width height).rect)
  have hget : (pushFree (pushFree free (b.strip width height).rect) (b.remainder height).rect)[i]? =
      some b.rect := by
    rw [getElem?_pushFree _ hlt', getElem?_pushFree _ hlt, hi]
  have hcut := countP_swapPop _ hget (·.hasCell ci cj)
  rw [countP_pushFree (Box.within_remainder hbottom hb),
    countP_pushFree (Box.within_strip hright hbottom hb)] at hcut
  have hparts := Box.hasCell_cut hright hbottom hb ci cj
  rw [cut_eq hi hb hright hbottom]
  omega

theorem mem_cut {r : Rect} (hr : r ∈ cut i width height free) :
    r ∈ free ∨ (r = (b.strip width height).rect ∧ r.hasArea = true) ∨
      (r = (b.remainder height).rect ∧ r.hasArea = true) := by
  have hlt : i < free.size := (Array.getElem?_eq_some_iff.mp hi).1
  have hlt' := hlt.trans_le (size_le_pushFree free (b.strip width height).rect)
  rw [cut_eq hi hb hright hbottom] at hr
  have hmem := mem_of_mem_swapPop (hlt'.trans_le (size_le_pushFree _ _)) hr
  rcases mem_pushFree.mp hmem with hmem | hremainder
  · rcases mem_pushFree.mp hmem with hfree | hstrip
    · exact Or.inl hfree
    · exact Or.inr (Or.inl hstrip)
  · exact Or.inr (Or.inr hremainder)

end Cut

end Atlas
end SpriteField
