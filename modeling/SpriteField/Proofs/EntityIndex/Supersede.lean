import SpriteField.Proofs.EntityIndex.Order
import SpriteField.Proofs.EntityIndex.Replay

/-!
# Superseded updates

The entities of an index and the order within its buckets determine all the rest of it: each slot's
references, which chunks have a bucket, and every bucket.  An update that is superseded is last in
all buckets that it joined, and so the update that supersedes it finds the same buckets as without
it.
-/

namespace SpriteField
namespace EntityIndex

/-! ## What determines an index -/

section Determined

variable {ix ix' : EntityIndex}

/-- A chunk has a bucket exactly if it has entries. -/
theorem Consistent.getElem?_chunks (h : ix.Consistent) (chunk : Nat) :
    ix.chunks[chunk]? =
      if (ix.chunkEntries chunk).isEmpty then none else some ⟨ix.chunkEntries chunk⟩ := by
  rw [chunkEntries_eq]
  cases hbucket : ix.chunks[chunk]? with
  | none => rfl
  | some bucket =>
    have hfilled : bucket.items.isEmpty = false := h.filled hbucket
    rw [Option.map_some, Option.getD_some, hfilled]
    rfl

theorem Consistent.getElem?_tags (h : ix.Consistent) (tag : Nat) :
    ix.tags[tag]? = if tag < SpriteField.tagCount then some ⟨ix.tagSlots tag⟩ else none := by
  rw [tagSlots_eq, ← h.tagCount]
  split
  next hlt =>
    rw [Array.getElem?_eq_getElem hlt]
    rfl
  next hle => exact Array.getElem?_eq_none (Nat.not_lt.mp hle)

/-- Two indexes with the same entities have the same slots, up to references. -/
theorem eq_withRefs_of_frame (hframe : ix.withoutMemberships = ix'.withoutMemberships) {i : Nat}
    {s s' : Slot} (hs : ix.slots[i]? = some s) (hs' : ix'.slots[i]? = some s') :
    s = { s' with chunkRefs := s.chunkRefs, tagRefs := s.tagRefs } := by
  have hi := congrArg (fun ix => ix.slots[i]?) hframe
  simp only [getElem?_withoutMemberships, hs, hs', Option.map_some] at hi
  obtain ⟨hentity, -, -, hquad⟩ := Slot.mk.inj (Option.some.inj hi)
  rw [← hentity, ← hquad]

theorem Consistent.slots_eq (h : ix.Consistent) (h' : ix'.Consistent)
    (hframe : ix.withoutMemberships = ix'.withoutMemberships)
    (hchunks : ix.chunkEntries = ix'.chunkEntries) (htags : ix.tagSlots = ix'.tagSlots) :
    ix.slots = ix'.slots := by
  have hgrid : ix.grid = ix'.grid := (EntityIndex.mk.inj hframe).1
  apply Array.ext_getElem?
  intro i
  cases hs : ix.slots[i]? with
  | none =>
    cases hs' : ix'.slots[i]? with
    | none => rfl
    | some s' =>
      obtain ⟨s, hsome, -⟩ := exists_slot_of_frame hframe hs'
      rw [hs] at hsome
      cases hsome
  | some s =>
    obtain ⟨s', hs', -⟩ := exists_slot_of_frame hframe.symm hs
    have hsame := eq_withRefs_of_frame hframe hs hs'
    have hcollider : s.entity.collider = s'.entity.collider := by rw [hsame]
    have hchunkRefs : ix.chunkRefList i = ix'.chunkRefList i := by
      apply h.chunks.refs_unique (hchunks ▸ h'.chunks)
      rw [h.chunkRefList_bucket hs, h'.chunkRefList_bucket hs', hgrid, hcollider]
    have htagRefs : ix.tagRefList i = ix'.tagRefList i := by
      apply h.tags.refs_unique (htags ▸ h'.tags)
      rw [h.tagRefList_bucket hs, h'.tagRefList_bucket hs', hcollider]
    rw [chunkRefList_eq hs, chunkRefList_eq hs'] at hchunkRefs
    rw [tagRefList_eq hs, tagRefList_eq hs'] at htagRefs
    rw [hs', hsame, Array.toList_inj.mp hchunkRefs, Array.toList_inj.mp htagRefs]

theorem Consistent.resetCounters_eq (h : ix.Consistent) (h' : ix'.Consistent)
    (hframe : ix.withoutMemberships = ix'.withoutMemberships)
    (hchunks : ix.chunkEntries = ix'.chunkEntries) (htags : ix.tagSlots = ix'.tagSlots) :
    ix.resetCounters = ix'.resetCounters := by
  obtain ⟨hgrid, -, hslotOf, -, -, hdrawn, hstale, -⟩ := EntityIndex.mk.inj hframe
  have hslots := h.slots_eq h' hframe hchunks htags
  have hchunkTable : ix.chunks = ix'.chunks := by
    apply Std.ExtTreeMap.ext_getElem?
    intro chunk
    rw [h.getElem?_chunks, h'.getElem?_chunks, hchunks]
  have htagTable : ix.tags = ix'.tags := by
    apply Array.ext_getElem?
    intro tag
    rw [h.getElem?_tags, h'.getElem?_tags, htags]
  unfold resetCounters
  obtain ⟨⟩ := ix
  obtain ⟨⟩ := ix'
  simp only [EntityIndex.mk.injEq] at *
  exact ⟨hgrid, hslots, hslotOf, hchunkTable, htagTable, hdrawn, hstale, trivial⟩

end Determined

/-! ## Two updates of one entity -/

theorem withoutMemberships_edit {ix ix' : EntityIndex} {id : Nat} {change : Entity → Entity}
    (h : ix'.withoutMemberships = (ix.edit id change).withoutMemberships)
    (change' : Entity → Entity) :
    (ix'.edit id change').withoutMemberships =
      (ix.edit id (change' ∘ change)).withoutMemberships := by
  have hslotOf : ix'.slotOf = (ix.known id).slotOf := (EntityIndex.mk.inj h).2.2.1
  have hslot : ix'.slotOf[id]? = some (ix.slotNumber id) := by
    rw [hslotOf, slotOf_known]
  have hnumber : ix'.slotNumber id = ix.slotNumber id := by
    rw [slotNumber, hslot, Option.getD_some]
  have hmodify := withoutMemberships_modifySlot (ix.slotNumber id)
    (fun s => s.withEntity (change' s.entity)) (fun s => s.withEntity (change' s.entity)) h (by
      intro s s' heq
      have hentity := (Slot.mk.inj heq).1
      simp only [Slot.withEntity, hentity])
  have htwice := modifySlot_modifySlot (ix.known id) (ix.slotNumber id)
    (fun s => s.withEntity (change s.entity)) (fun s => s.withEntity (change' s.entity))
  unfold edit
  rw [known_of_some hslot, hnumber]
  refine (congrArg (fun ix => { ix with stale := true }) hmodify).trans ?_
  exact congrArg (fun ix => ({ ix with stale := true } : EntityIndex).withoutMemberships) htwice

/-- What a collider that is set makes of an index. -/
structure CarriedOut (ix ix' : EntityIndex) (collider : Collider) : Prop where
  done : setCollider collider ix = .ok ⟨⟩ ix'
  consistent : ix'.Consistent
  frame : ix'.withoutMemberships =
    (ix.edit collider.id fun old => { old with collider }).withoutMemberships
  order : Reordered ix ix' (ix.slotNumber collider.id) collider

@[simp] theorem chunkEntries_known (ix : EntityIndex) (id : Nat) :
    (ix.known id).chunkEntries = ix.chunkEntries := by
  unfold known
  split <;> rfl

@[simp] theorem tagSlots_known (ix : EntityIndex) (id : Nat) :
    (ix.known id).tagSlots = ix.tagSlots := by
  unfold known
  split <;> rfl

@[simp] theorem chunkRefList_known (ix : EntityIndex) (id : Nat) :
    (ix.known id).chunkRefList = ix.chunkRefList := by
  unfold known
  split
  · rfl
  · exact chunkRefList_withBlank ix id

@[simp] theorem tagRefList_known (ix : EntityIndex) (id : Nat) :
    (ix.known id).tagRefList = ix.tagRefList := by
  unfold known
  split
  · rfl
  · exact tagRefList_withBlank ix id

theorem Consistent.exists_carriedOut {ix : EntityIndex} (h : ix.Consistent) {collider : Collider}
    (hvalid : collider.bounds.isValid = true) : ∃ ix', CarriedOut ix ix' collider := by
  obtain ⟨ix', hreplace, hconsistent, hframe⟩ := replaceCollider_known h hvalid
  obtain ⟨hchunks, htags⟩ := (h.known collider.id).reordered_replaceCollider hreplace
  simp only [chunkEntries_known, tagSlots_known, chunkRefList_known, tagRefList_known,
    grid_known] at hchunks htags
  exact ⟨ix', setCollider_of_replace hvalid hreplace, hconsistent, hframe, hchunks, htags⟩

namespace CarriedOut

variable {ix ix' : EntityIndex} {collider : Collider}

theorem grid_eq (h : CarriedOut ix ix' collider) : ix'.grid = ix.grid :=
  (EntityIndex.mk.inj h.frame).1.trans (grid_known ix collider.id)

theorem slotOf_eq (h : CarriedOut ix ix' collider) :
    ix'.slotOf[collider.id]? = some (ix.slotNumber collider.id) := by
  have hslotOf : ix'.slotOf = (ix.known collider.id).slotOf := (EntityIndex.mk.inj h.frame).2.2.1
  rw [hslotOf, slotOf_known]

theorem slotNumber_eq (h : CarriedOut ix ix' collider) :
    ix'.slotNumber collider.id = ix.slotNumber collider.id := by
  rw [slotNumber, h.slotOf_eq, Option.getD_some]

theorem colliderOf_eq (h : CarriedOut ix ix' collider) (hix : ix.Consistent) :
    ix'.colliderOf collider.id = collider := by
  rw [colliderOf, ← get?_withoutMemberships, h.frame, get?_withoutMemberships, hix.get?_edit,
    Function.update_self]
  rfl

theorem exists_slot (h : CarriedOut ix ix' collider) (hix : ix.Consistent) :
    ∃ s, ix'.slots[ix.slotNumber collider.id]? = some s ∧ s.entity.collider = collider := by
  obtain ⟨s, hs, -, hentity⟩ := h.consistent.getElem?_known collider.id
  rw [known_of_some h.slotOf_eq, h.slotNumber_eq] at hs
  refine ⟨s, hs, ?_⟩
  have hcollider := h.colliderOf_eq hix
  rw [hentity]
  unfold colliderOf at hcollider
  cases hget : ix'.get? collider.id with
  | none =>
    rw [hget] at hcollider
    exact hcollider
  | some entity =>
    rw [hget] at hcollider
    exact hcollider

/-- The buckets without the entity, in the order that its next update will find. -/
theorem vacate_chunks (h : CarriedOut ix ix' collider) (hix : ix.Consistent) :
    Linked.vacate ix'.chunkEntries (ix'.chunkRefList (ix.slotNumber collider.id)) =
      Linked.vacate ix.chunkEntries (ix.chunkRefList (ix.slotNumber collider.id)) := by
  obtain ⟨s, hs, hcollider⟩ := h.exists_slot hix
  have hlinked := h.consistent.chunks
  rw [h.order.chunks] at hlinked ⊢
  apply hlinked.vacate_occupy
  exact (h.consistent.chunkRefList_bucket hs).trans (by rw [h.grid_eq, hcollider])

theorem vacate_tags (h : CarriedOut ix ix' collider) (hix : ix.Consistent) :
    Linked.vacate ix'.tagSlots (ix'.tagRefList (ix.slotNumber collider.id)) =
      Linked.vacate ix.tagSlots (ix.tagRefList (ix.slotNumber collider.id)) := by
  obtain ⟨s, hs, hcollider⟩ := h.exists_slot hix
  have hlinked := h.consistent.tags
  rw [h.order.tags] at hlinked ⊢
  apply hlinked.vacate_occupy
  exact (h.consistent.tagRefList_bucket hs).trans (by rw [hcollider])

/-- The update that supersedes another leads where it leads alone. -/
theorem supersedes {ix₁ ix₂ alone : EntityIndex} {first second : Collider} (hix : ix.Consistent)
    (hfirst : CarriedOut ix ix₁ first) (hsecond : CarriedOut ix₁ ix₂ second)
    (halone : CarriedOut ix alone second) (hid : first.id = second.id) :
    ix₂.resetCounters = alone.resetCounters := by
  have hnumber : ix₁.slotNumber second.id = ix.slotNumber second.id := by
    rw [← hid, hfirst.slotNumber_eq]
  have hchunks := hfirst.vacate_chunks hix
  have htags := hfirst.vacate_tags hix
  have hframe := hfirst.frame
  rw [hid] at hchunks htags hframe
  apply hsecond.consistent.resetCounters_eq halone.consistent
  · rw [hsecond.frame, halone.frame, withoutMemberships_edit hframe]
    rfl
  · rw [hsecond.order.chunks, halone.order.chunks, hnumber, hchunks, hfirst.grid_eq]
  · rw [hsecond.order.tags, halone.order.tags, hnumber, htags]

end CarriedOut

/-- Both programs are carried out, and the same index comes of them but for its counters. -/
def SameOutcome (program program' : IndexM Unit) (ix : EntityIndex) : Prop :=
  ∃ left right, program ix = .ok ⟨⟩ left ∧ program' ix = .ok ⟨⟩ right ∧
    left.resetCounters = right.resetCounters

/-- Of two updates of one entity, the first leaves no trace. -/
structure Supersedes (ix : EntityIndex) : Prop where
  replaced : ∀ first second : Collider, first.id = second.id → first.bounds.isValid = true →
    second.bounds.isValid = true →
    SameOutcome (do setCollider first; setCollider second) (setCollider second) ix
  idempotent : ∀ collider : Collider, collider.bounds.isValid = true →
    SameOutcome (do setCollider collider; setCollider collider) (setCollider collider) ix
  piecewise : ∀ (id : Nat) (bounds : Rect) (tags : TagSet), bounds.isValid = true →
    SameOutcome (do setBounds id bounds; setTagSet id tags) (setCollider ⟨id, bounds, tags⟩) ix

section Supersedes

variable {ix : EntityIndex} (h : ix.Consistent)
include h

theorem Consistent.replaced {first second : Collider} (hid : first.id = second.id)
    (hfirst : first.bounds.isValid = true) (hsecond : second.bounds.isValid = true) :
    SameOutcome (do setCollider first; setCollider second) (setCollider second) ix := by
  obtain ⟨ix₁, hone⟩ := h.exists_carriedOut hfirst
  obtain ⟨ix₂, htwo⟩ := hone.consistent.exists_carriedOut hsecond
  obtain ⟨alone, halone⟩ := h.exists_carriedOut hsecond
  exact ⟨ix₂, alone, (bind_of_ok hone.done).trans htwo.done, halone.done,
    CarriedOut.supersedes h hone htwo halone hid⟩

/-- Bounds and then tags are a whole collider, whose other half was set just before. -/
theorem Consistent.piecewise (id : Nat) {bounds : Rect} (tags : TagSet)
    (hvalid : bounds.isValid = true) :
    SameOutcome (do setBounds id bounds; setTagSet id tags) (setCollider ⟨id, bounds, tags⟩)
      ix := by
  set first : Collider := { ix.colliderOf id with bounds }
  set second : Collider := ⟨id, bounds, tags⟩
  have hid : first.id = second.id := h.id_colliderOf id
  have hfirst : first.bounds.isValid = true := hvalid
  have hsecond : second.bounds.isValid = true := hvalid
  obtain ⟨ix₁, hone⟩ := h.exists_carriedOut hfirst
  have hheld : ix₁.colliderOf id = first :=
    (congrArg ix₁.colliderOf hid).symm.trans (hone.colliderOf_eq h)
  have hrest : ({ ix₁.colliderOf id with tags } : Collider) = second := by
    rw [hheld]
    exact congrArg (fun id => (⟨id, bounds, tags⟩ : Collider)) hid
  obtain ⟨left, right, hdone, halone, hsame⟩ := h.replaced hid hfirst hsecond
  refine ⟨left, right, ?_, halone, hsame⟩
  have hsetBounds : setBounds id bounds ix = .ok ⟨⟩ ix₁ := hone.done
  have hsetTagSet : setTagSet id tags ix₁ = setCollider second ix₁ :=
    congrArg (fun collider => setCollider collider ix₁) hrest
  rw [bind_of_ok hone.done] at hdone
  rw [bind_of_ok hsetBounds]
  exact hsetTagSet.trans hdone

theorem Consistent.supersedes : Supersedes ix where
  replaced _ _ hid hfirst hsecond := h.replaced hid hfirst hsecond
  idempotent _ hvalid := h.replaced rfl hvalid hvalid
  piecewise id _ tags hvalid := h.piecewise id tags hvalid

end Supersedes

/-- In every state that calls reach from an empty index, an update leaves no trace of the one that
it supersedes. -/
theorem run_supersedes {grid : Grid} {start : EntityIndex} (hnew : new grid = .ok start)
    (calls : List Call) : Supersedes (start.run calls) :=
  (consistent_run hnew calls).1.supersedes

/-- The superseded collider spans more chunks and carries one more tag; either way the other entity
ends up first in the bucket of the tag that both carry. -/
theorem supersedes_wider_collider :
    let square : Rect := .ofSize .zero .zero .one .one
    let wide : Rect := .ofSize .zero .zero (.ofNat 4000) .one
    let ix := (onGrid .standard).run
      [.setCollider ⟨1, square, .ofList [3]⟩, .setCollider ⟨7, square, .ofList [3]⟩]
    let first : Collider := ⟨1, wide, .ofList [3, 200]⟩
    let second : Collider := ⟨1, square, .ofList [3]⟩
    new .standard = .ok (onGrid .standard) ∧
      SameOutcome (do setCollider first; setCollider second) (setCollider second) ix ∧
      ix.tagSlots 3 = #[0, 1] ∧
      (ix.run [.setCollider first, .setCollider second]).tagSlots 3 = #[1, 0] ∧
      (ix.run [.setCollider second]).tagSlots 3 = #[1, 0] := by
  intro square wide ix first second
  have hnew : new .standard = .ok (onGrid .standard) := rfl
  have hsupersedes : Supersedes ix := run_supersedes hnew _
  refine ⟨hnew, hsupersedes.replaced first second rfl (by decide) (by decide), ?_, ?_, ?_⟩
  · decide +kernel
  · decide +kernel
  · decide +kernel

end EntityIndex
end SpriteField
