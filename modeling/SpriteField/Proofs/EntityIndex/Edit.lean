import SpriteField.Proofs.EntityIndex.Replace

/-!
# Editing an entity

Every call that changes an entity gives its id a slot, changes the entity there and draws its quad
again.  This is what the calls come to, memberships and counters apart: `edit` says it without the
tables, and each program is either refused before it changes anything or carried out as that edit.
-/

namespace SpriteField

theorem Rect.isValid_zero : Rect.zero.isValid = true := by decide

theorem Rect.hasArea_zero : Rect.zero.hasArea = false := by decide

namespace EntityIndex

/-! ## Finding the slot -/

def withBlank (ix : EntityIndex) (id : Nat) : EntityIndex :=
  { ix with
    slots := ix.slots.push (.blank id), slotOf := ix.slotOf.insert id ix.slots.size }

theorem getElem?_withBlank (ix : EntityIndex) (id i : Nat) :
    (ix.withBlank id).slots[i]? =
      if i = ix.slots.size then some (.blank id) else ix.slots[i]? := by
  rw [withBlank, Array.getElem?_push]

theorem slotOf_withBlank (ix : EntityIndex) (id key : Nat) :
    (ix.withBlank id).slotOf[key]? =
      if key = id then some ix.slots.size else ix.slotOf[key]? := by
  simp only [withBlank, Std.ExtTreeMap.getElem?_insert, compare_eq_iff_eq]
  by_cases heq : key = id
  · rw [if_pos heq, if_pos heq.symm]
  · rw [if_neg heq, if_neg (Ne.symm heq)]

@[simp] theorem chunkRefList_withBlank (ix : EntityIndex) (id : Nat) :
    (ix.withBlank id).chunkRefList = ix.chunkRefList := by
  funext i
  by_cases heq : i = ix.slots.size
  · rw [chunkRefList_eq (by rw [getElem?_withBlank, if_pos heq]),
      chunkRefList_of_none (by simp [heq])]
    rfl
  · rw [chunkRefList, chunkRefList, chunkRefs, chunkRefs, getElem?_withBlank, if_neg heq]

@[simp] theorem tagRefList_withBlank (ix : EntityIndex) (id : Nat) :
    (ix.withBlank id).tagRefList = ix.tagRefList := by
  funext i
  by_cases heq : i = ix.slots.size
  · rw [tagRefList_eq (by rw [getElem?_withBlank, if_pos heq]),
      tagRefList_of_none (by simp [heq])]
    rfl
  · rw [tagRefList, tagRefList, tagRefs, tagRefs, getElem?_withBlank, if_neg heq]

theorem lt_of_getElem?_eq_some {ix : EntityIndex} {i : Nat} {s : Slot}
    (hs : ix.slots[i]? = some s) : i < ix.slots.size :=
  (Array.getElem?_eq_some_iff.mp hs).1

theorem slot_withBlank {ix : EntityIndex} {id i : Nat} {s : Slot}
    (hs : (ix.withBlank id).slots[i]? = some s) :
    (i = ix.slots.size ∧ s = .blank id) ∨ ix.slots[i]? = some s := by
  rw [getElem?_withBlank] at hs
  split at hs
  next heq => exact Or.inl ⟨heq, (Option.some.inj hs).symm⟩
  next => exact Or.inr hs

theorem Consistent.withBlank {ix : EntityIndex} (h : ix.Consistent) {id : Nat}
    (hnew : ix.slotOf[id]? = none) : (ix.withBlank id).Consistent := by
  have hold : ∀ {i : Nat} {s : Slot}, ix.slots[i]? = some s →
      (ix.withBlank id).slots[i]? = some s := by
    intro i s hs
    have hlt := lt_of_getElem?_eq_some hs
    rw [getElem?_withBlank, if_neg (Nat.ne_of_lt hlt), hs]
  have hids : ∀ {i : Nat} {s : Slot}, ix.slots[i]? = some s → s.entity.id ≠ id := by
    intro i s hs hid
    have hfound := (h.slotOf_iff id i).mpr ⟨s, hs, hid⟩
    simp [hnew] at hfound
  constructor
  · exact h.grid
  · intro key i
    rw [slotOf_withBlank]
    constructor
    · intro hkey
      split at hkey
      next heq =>
        rw [← Option.some.inj hkey, heq]
        exact ⟨.blank id, by rw [getElem?_withBlank, if_pos rfl], rfl⟩
      next =>
        obtain ⟨s, hs, hid⟩ := (h.slotOf_iff key i).mp hkey
        exact ⟨s, hold hs, hid⟩
    · rintro ⟨s, hs, hid⟩
      rcases slot_withBlank hs with ⟨rfl, rfl⟩ | hs
      · exact if_pos hid.symm
      · rw [if_neg fun heq => hids hs (hid.trans heq)]
        exact (h.slotOf_iff key i).mpr ⟨s, hs, hid⟩
  · intro i s hs
    rcases slot_withBlank hs with ⟨-, rfl⟩ | hs
    · rfl
    · exact h.bounds hs
  · intro i s hs
    rcases slot_withBlank hs with ⟨-, rfl⟩ | hs
    · rfl
    · exact h.chunkRefs hs
  · intro i s hs
    rcases slot_withBlank hs with ⟨-, rfl⟩ | hs
    · exact TagSet.toList_empty.symm
    · exact h.tagRefs hs
  · rw [chunkRefList_withBlank]
    exact h.chunks
  · rw [tagRefList_withBlank]
    exact h.tags
  · intro chunk entry hentry
    obtain ⟨s, hs, heq⟩ := h.current chunk entry hentry
    exact ⟨s, hold hs, heq⟩
  · exact h.filled
  · exact h.tagCount

/-- The index in which `id` has a slot. -/
def known (ix : EntityIndex) (id : Nat) : EntityIndex :=
  match ix.slotOf[id]? with
  | some _ => ix
  | none => ix.withBlank id

/-- The slot of an id, the next one for an id that has none yet. -/
def slotNumber (ix : EntityIndex) (id : Nat) : Nat :=
  (ix.slotOf[id]?).getD ix.slots.size

theorem known_of_some {ix : EntityIndex} {id slot : Nat} (h : ix.slotOf[id]? = some slot) :
    ix.known id = ix := by
  rw [known, h]

theorem known_of_none {ix : EntityIndex} {id : Nat} (h : ix.slotOf[id]? = none) :
    ix.known id = ix.withBlank id := by
  rw [known, h]

theorem slotNumber_of_some {ix : EntityIndex} {id slot : Nat} (h : ix.slotOf[id]? = some slot) :
    ix.slotNumber id = slot := by
  rw [slotNumber, h, Option.getD_some]

theorem slotFor_eq (id : Nat) (ix : EntityIndex) :
    slotFor id ix = .ok (ix.slotNumber id) (ix.known id) := by
  rw [slotFor, modifyGet_eq, slotNumber, known]
  cases ix.slotOf[id]? <;> rfl

theorem Consistent.known {ix : EntityIndex} (h : ix.Consistent) (id : Nat) :
    (ix.known id).Consistent := by
  cases hslot : ix.slotOf[id]? with
  | some slot =>
    rw [known_of_some hslot]
    exact h
  | none =>
    rw [known_of_none hslot]
    exact h.withBlank hslot

@[simp] theorem grid_known (ix : EntityIndex) (id : Nat) : (ix.known id).grid = ix.grid := by
  unfold known
  split <;> rfl

theorem get?_of_slotOf {ix : EntityIndex} {id slot : Nat} (h : ix.slotOf[id]? = some slot) :
    ix.get? id = (ix.slots[slot]?).map (·.entity) := by
  rw [get?, slot?, h]
  rfl

theorem get?_of_none {ix : EntityIndex} {id : Nat} (h : ix.slotOf[id]? = none) :
    ix.get? id = none := by
  rw [get?, slot?, h]
  rfl

/-- The slot that a call works on holds the entity of its id, a blank one if the id is new. -/
theorem Consistent.getElem?_known {ix : EntityIndex} (h : ix.Consistent) (id : Nat) :
    ∃ s : Slot, (ix.known id).slots[ix.slotNumber id]? = some s ∧ s.entity.id = id ∧
      s.entity = (ix.get? id).getD (.blank id) := by
  cases hslot : ix.slotOf[id]? with
  | some slot =>
    obtain ⟨s, hs, hid⟩ := (h.slotOf_iff id slot).mp hslot
    refine ⟨s, ?_, hid, ?_⟩
    · rw [known_of_some hslot, slotNumber, hslot]
      exact hs
    · rw [get?_of_slotOf hslot, hs]
      rfl
  | none =>
    refine ⟨.blank id, ?_, rfl, ?_⟩
    · rw [known_of_none hslot, slotNumber, hslot, Option.getD_none, getElem?_withBlank, if_pos rfl]
    · rw [get?_of_none hslot]
      rfl

theorem Consistent.id_colliderOf {ix : EntityIndex} (h : ix.Consistent) (id : Nat) :
    (ix.colliderOf id).id = id := by
  obtain ⟨s, -, hid, hentity⟩ := h.getElem?_known id
  rw [hentity] at hid
  rw [colliderOf]
  cases hget : ix.get? id with
  | none => rfl
  | some entity =>
    rw [hget] at hid
    exact hid

/-! ## The programs -/

/-- A change of a slot that does not touch what consistency speaks of. -/
structure KeepsMemberships (change : Slot → Slot) : Prop where
  collider : ∀ s, (change s).entity.collider = s.entity.collider
  chunkRefs : ∀ s, (change s).chunkRefs = s.chunkRefs
  tagRefs : ∀ s, (change s).tagRefs = s.tagRefs

section KeepsMemberships

variable {ix : EntityIndex} {change : Slot → Slot} (hchange : KeepsMemberships change) (slot : Nat)
include hchange

theorem KeepsMemberships.slot_before {i : Nat} {s : Slot}
    (hs : (ix.modifySlot slot change).slots[i]? = some s) :
    ∃ old, ix.slots[i]? = some old ∧ s.entity.collider = old.entity.collider ∧
      s.chunkRefs = old.chunkRefs ∧ s.tagRefs = old.tagRefs := by
  rw [getElem?_modifySlot] at hs
  split at hs
  · obtain ⟨old, hold, rfl⟩ := Option.map_eq_some_iff.mp hs
    exact ⟨old, hold, hchange.collider old, hchange.chunkRefs old, hchange.tagRefs old⟩
  · exact ⟨s, hs, rfl, rfl, rfl⟩

theorem KeepsMemberships.slot_after {i : Nat} {old : Slot} (hold : ix.slots[i]? = some old) :
    ∃ s, (ix.modifySlot slot change).slots[i]? = some s ∧
      s.entity.collider = old.entity.collider := by
  rw [getElem?_modifySlot, hold]
  split
  · exact ⟨change old, rfl, hchange.collider old⟩
  · exact ⟨old, rfl, rfl⟩

theorem KeepsMemberships.chunkRefList_modifySlot :
    (ix.modifySlot slot change).chunkRefList = ix.chunkRefList := by
  funext i
  by_cases heq : i = slot
  · rw [chunkRefList, chunkRefList, EntityIndex.chunkRefs, EntityIndex.chunkRefs,
      getElem?_modifySlot, if_pos heq.symm]
    cases ix.slots[i]? <;> simp [hchange.chunkRefs]
  · exact chunkRefList_modifySlot_of_ne ix heq change

theorem KeepsMemberships.tagRefList_modifySlot :
    (ix.modifySlot slot change).tagRefList = ix.tagRefList := by
  funext i
  by_cases heq : i = slot
  · rw [tagRefList, tagRefList, EntityIndex.tagRefs, EntityIndex.tagRefs,
      getElem?_modifySlot, if_pos heq.symm]
    cases ix.slots[i]? <;> simp [hchange.tagRefs]
  · exact tagRefList_modifySlot_of_ne ix heq change

theorem Consistent.modifySlot (h : ix.Consistent) : (ix.modifySlot slot change).Consistent := by
  constructor
  · exact h.grid
  · intro id i
    change ix.slotOf[id]? = some i ↔ _
    rw [h.slotOf_iff]
    constructor
    · rintro ⟨old, hold, hid⟩
      obtain ⟨s, hs, hsame⟩ := hchange.slot_after slot hold
      exact ⟨s, hs, by rw [Entity.id, hsame]; exact hid⟩
    · rintro ⟨s, hs, hid⟩
      obtain ⟨old, hold, hsame, -⟩ := hchange.slot_before slot hs
      exact ⟨old, hold, by rw [Entity.id, ← hsame]; exact hid⟩
  · intro i s hs
    obtain ⟨old, hold, hsame, -⟩ := hchange.slot_before slot hs
    rw [hsame]
    exact h.bounds hold
  · intro i s hs
    obtain ⟨old, hold, hsame, hrefs, -⟩ := hchange.slot_before slot hs
    rw [hsame, hrefs]
    exact h.chunkRefs hold
  · intro i s hs
    obtain ⟨old, hold, hsame, -, hrefs⟩ := hchange.slot_before slot hs
    rw [hsame, hrefs]
    exact h.tagRefs hold
  · rw [hchange.chunkRefList_modifySlot]
    exact h.chunks
  · rw [hchange.tagRefList_modifySlot]
    exact h.tags
  · intro chunk entry hentry
    obtain ⟨old, hold, heq⟩ := h.current chunk entry hentry
    obtain ⟨s, hs, hsame⟩ := hchange.slot_after slot hold
    exact ⟨s, hs, by rw [hsame]; exact heq⟩
  · exact h.filled
  · exact h.tagCount

end KeepsMemberships

def withSprite (ix : EntityIndex) (slot : Nat) (sprite : Sprite) : EntityIndex :=
  { ix.modifySlot slot fun s => s.withEntity { s.entity with sprite } with stale := true }

theorem replaceSprite_ok (ix : EntityIndex) (slot : Nat) (sprite : Sprite) :
    replaceSprite slot sprite ix = .ok ⟨⟩ (ix.withSprite slot sprite) := rfl

theorem Consistent.withSprite {ix : EntityIndex} (h : ix.Consistent) (slot : Nat)
    (sprite : Sprite) : (ix.withSprite slot sprite).Consistent := by
  have hchange : KeepsMemberships fun s => s.withEntity { s.entity with sprite } :=
    ⟨fun _ => rfl, fun _ => rfl, fun _ => rfl⟩
  exact (Consistent.modifySlot hchange slot h).congr rfl rfl rfl rfl rfl

theorem checkCollider_of_isValid {collider : Collider} (h : collider.bounds.isValid = true)
    (ix : EntityIndex) : checkCollider collider ix = .ok ⟨⟩ ix := by
  rw [checkCollider, if_pos h]
  rfl

theorem checkCollider_of_not_isValid {collider : Collider} (h : collider.bounds.isValid = false)
    (ix : EntityIndex) : checkCollider collider ix =
      .error (.invalidBounds collider.id collider.bounds) ix := by
  rw [checkCollider, h]
  rfl

theorem checkSprite_of_none {sprite : Sprite} (h : spriteFault? sprite = none) (id : Nat)
    (ix : EntityIndex) : checkSprite id sprite ix = .ok ⟨⟩ ix := by
  rw [checkSprite, h]
  rfl

theorem checkSprite_of_some {sprite : Sprite} {fault : SpriteFault}
    (h : spriteFault? sprite = some fault) (id : Nat) (ix : EntityIndex) :
    checkSprite id sprite ix = .error (.invalidSprite id fault) ix := by
  rw [checkSprite, h]
  rfl

/-! ## Edits -/

/-- The entity of `id` changed, a blank one if the id is new, and its quad drawn again. -/
def edit (ix : EntityIndex) (id : Nat) (change : Entity → Entity) : EntityIndex :=
  { (ix.known id).modifySlot (ix.slotNumber id) fun s => s.withEntity (change s.entity) with
    stale := true }

@[simp] theorem grid_edit (ix : EntityIndex) (id : Nat) (change : Entity → Entity) :
    (ix.edit id change).grid = ix.grid :=
  grid_known ix id

theorem getElem?_edit (ix : EntityIndex) (id i : Nat) (change : Entity → Entity) :
    (ix.edit id change).slots[i]? =
      if ix.slotNumber id = i then
        ((ix.known id).slots[i]?).map fun s => s.withEntity (change s.entity)
      else (ix.known id).slots[i]? :=
  getElem?_modifySlot (ix.known id) (ix.slotNumber id) i _

theorem modifySlot_congr {ix : EntityIndex} {slot : Nat} {change change' : Slot → Slot}
    (h : ∀ s, ix.slots[slot]? = some s → change s = change' s) :
    ix.modifySlot slot change = ix.modifySlot slot change' := by
  have hslots : ix.slots.modify slot change = ix.slots.modify slot change' := by
    apply Array.ext_getElem?
    intro i
    rw [Array.getElem?_modify, Array.getElem?_modify]
    split
    next heq =>
      subst heq
      cases hs : ix.slots[slot]? with
      | none => rfl
      | some s => exact congrArg some (h s hs)
    next => rfl
  rw [modifySlot, modifySlot, hslots]

theorem modifySlot_modifySlot (ix : EntityIndex) (slot : Nat) (change change' : Slot → Slot) :
    (ix.modifySlot slot change).modifySlot slot change' =
      ix.modifySlot slot (change' ∘ change) := by
  have hslots : (ix.slots.modify slot change).modify slot change' =
      ix.slots.modify slot (change' ∘ change) := by
    apply Array.ext_getElem?
    intro i
    rw [Array.getElem?_modify, Array.getElem?_modify, Array.getElem?_modify]
    split
    · rw [Option.map_map]
    · rfl
  exact congrArg (fun slots => { ix with slots }) hslots

/-- Only what becomes of the entity that the index holds matters. -/
theorem Consistent.edit_congr {ix : EntityIndex} (h : ix.Consistent) {id : Nat}
    {change change' : Entity → Entity}
    (heq : change ((ix.get? id).getD (.blank id)) = change' ((ix.get? id).getD (.blank id))) :
    ix.edit id change = ix.edit id change' := by
  obtain ⟨s, hs, -, hentity⟩ := h.getElem?_known id
  unfold edit
  rw [modifySlot_congr]
  intro s' hs'
  rw [hs] at hs'
  rw [← Option.some.inj hs', hentity, heq]

theorem withSprite_edit (ix : EntityIndex) (id : Nat) (change : Entity → Entity)
    (sprite : Sprite) :
    (ix.edit id change).withSprite (ix.slotNumber id) sprite =
      ix.edit id fun old => { change old with sprite } := by
  have hmodify := modifySlot_modifySlot (ix.known id) (ix.slotNumber id)
    (fun s => s.withEntity (change s.entity)) (fun s => s.withEntity { s.entity with sprite })
  exact congrArg (fun ix => { ix with stale := true }) hmodify

theorem withoutMemberships_withSprite {ix ix' : EntityIndex}
    (h : ix'.withoutMemberships = ix.withoutMemberships) (slot : Nat) (sprite : Sprite) :
    (ix'.withSprite slot sprite).withoutMemberships =
      (ix.withSprite slot sprite).withoutMemberships := by
  have hmodify := withoutMemberships_modifySlot slot
    (fun s => s.withEntity { s.entity with sprite })
    (fun s => s.withEntity { s.entity with sprite }) h (by
      intro s s' heq
      have hentity := (Slot.mk.inj heq).1
      simp only [Slot.withEntity, hentity])
  exact congrArg (fun ix => { ix with stale := true }) hmodify

/-- The program is carried out, and leads to the given index but for memberships and counters. -/
def Performs (program : IndexM Unit) (ix target : EntityIndex) : Prop :=
  ∃ ix', program ix = .ok ⟨⟩ ix' ∧ ix'.Consistent ∧
    ix'.withoutMemberships = target.withoutMemberships

theorem setCollider_of_not_isValid (collider : Collider)
    (hinvalid : collider.bounds.isValid = false) (ix : EntityIndex) :
    setCollider collider ix = .error (.invalidBounds collider.id collider.bounds) ix :=
  bind_of_error (checkCollider_of_not_isValid hinvalid ix)

theorem setSprite_of_some {sprite : Sprite} {fault : SpriteFault}
    (hfault : spriteFault? sprite = some fault) (id : Nat) (ix : EntityIndex) :
    setSprite id sprite ix = .error (.invalidSprite id fault) ix :=
  bind_of_error (checkSprite_of_some hfault id ix)

theorem set_of_not_isValid {entity : Entity} (hinvalid : entity.collider.bounds.isValid = false)
    (ix : EntityIndex) :
    set entity ix = .error (.invalidBounds entity.id entity.collider.bounds) ix :=
  bind_of_error (checkCollider_of_not_isValid hinvalid ix)

theorem set_of_some {entity : Entity} {fault : SpriteFault}
    (hvalid : entity.collider.bounds.isValid = true)
    (hfault : spriteFault? entity.sprite = some fault) (ix : EntityIndex) :
    set entity ix = .error (.invalidSprite entity.id fault) ix := by
  unfold set
  rw [bind_of_ok (checkCollider_of_isValid hvalid ix)]
  exact bind_of_error (checkSprite_of_some hfault entity.id ix)

theorem setCollider_of_replace {ix ix' : EntityIndex} {collider : Collider}
    (hvalid : collider.bounds.isValid = true)
    (hreplace : replaceCollider (ix.slotNumber collider.id) collider (ix.known collider.id) =
      .ok ⟨⟩ ix') : setCollider collider ix = .ok ⟨⟩ ix' := by
  unfold setCollider
  rw [bind_of_ok (checkCollider_of_isValid hvalid ix), bind_of_ok (slotFor_eq _ ix), hreplace]

theorem setSprite_of_none {sprite : Sprite} (hsound : spriteFault? sprite = none) (id : Nat)
    (ix : EntityIndex) :
    setSprite id sprite ix = .ok ⟨⟩ ((ix.known id).withSprite (ix.slotNumber id) sprite) := by
  unfold setSprite
  rw [bind_of_ok (checkSprite_of_none hsound id ix), bind_of_ok (slotFor_eq id ix),
    replaceSprite_ok]

theorem set_of_replace {ix ix' : EntityIndex} {entity : Entity}
    (hvalid : entity.collider.bounds.isValid = true)
    (hsound : spriteFault? entity.sprite = none)
    (hreplace : replaceCollider (ix.slotNumber entity.id) entity.collider (ix.known entity.id) =
      .ok ⟨⟩ ix') :
    set entity ix = .ok ⟨⟩ (ix'.withSprite (ix.slotNumber entity.id) entity.sprite) := by
  unfold set
  rw [bind_of_ok (checkCollider_of_isValid hvalid ix),
    bind_of_ok (checkSprite_of_none hsound entity.id ix), bind_of_ok (slotFor_eq _ ix),
    bind_of_ok hreplace, replaceSprite_ok]

section Performs

variable {ix : EntityIndex} (h : ix.Consistent)
include h

/-- The collider of the slot that a call has just looked up can be replaced. -/
theorem replaceCollider_known {collider : Collider} (hvalid : collider.bounds.isValid = true) :
    ∃ ix', replaceCollider (ix.slotNumber collider.id) collider (ix.known collider.id) =
        .ok ⟨⟩ ix' ∧ ix'.Consistent ∧
      ix'.withoutMemberships =
        (ix.edit collider.id fun old => { old with collider }).withoutMemberships := by
  obtain ⟨s, hs, hid, -⟩ := h.getElem?_known collider.id
  exact replaceCollider_ok (h.known collider.id) hs hid.symm hvalid

theorem performs_setCollider {collider : Collider} (hvalid : collider.bounds.isValid = true) :
    Performs (setCollider collider) ix
      (ix.edit collider.id fun old => { old with collider }) := by
  obtain ⟨ix', hreplace, hframe⟩ := replaceCollider_known h hvalid
  exact ⟨ix', setCollider_of_replace hvalid hreplace, hframe⟩

theorem performs_setSprite {sprite : Sprite} (hsound : spriteFault? sprite = none) (id : Nat) :
    Performs (setSprite id sprite) ix (ix.edit id fun old => { old with sprite }) :=
  ⟨(ix.known id).withSprite (ix.slotNumber id) sprite, setSprite_of_none hsound id ix,
    (h.known id).withSprite _ sprite, rfl⟩

theorem performs_set {entity : Entity} (hvalid : entity.collider.bounds.isValid = true)
    (hsound : spriteFault? entity.sprite = none) :
    Performs (set entity) ix (ix.edit entity.id fun _ => entity) := by
  obtain ⟨ix', hreplace, hconsistent, hframe⟩ := replaceCollider_known h hvalid
  refine ⟨ix'.withSprite (ix.slotNumber entity.id) entity.sprite,
    set_of_replace hvalid hsound hreplace, hconsistent.withSprite _ entity.sprite, ?_⟩
  rw [withoutMemberships_withSprite hframe]
  change ((ix.edit entity.id _).withSprite (ix.slotNumber entity.id) _).withoutMemberships = _
  rw [withSprite_edit]

/-- A changed copy of the collider that the index holds changes the entity that it holds. -/
theorem edit_colliderOf (id : Nat) (change : Collider → Collider) :
    (ix.edit id fun old => { old with collider := change (ix.colliderOf id) }) =
      ix.edit id fun old => { old with collider := change old.collider } := by
  apply h.edit_congr
  unfold colliderOf
  cases ix.get? id <;> rfl

theorem performs_setCollider_of_held (change : Collider → Collider)
    (hkeep : ∀ old, (change old).id = old.id) {id : Nat}
    (hvalid : (change (ix.colliderOf id)).bounds.isValid = true) :
    Performs (setCollider (change (ix.colliderOf id))) ix
      (ix.edit id fun old => { old with collider := change old.collider }) := by
  have hid : (change (ix.colliderOf id)).id = id := (hkeep _).trans (h.id_colliderOf id)
  have hset := performs_setCollider h hvalid
  rwa [hid, edit_colliderOf h] at hset

theorem performs_setBounds {bounds : Rect} (hvalid : bounds.isValid = true) (id : Nat) :
    Performs (setBounds id bounds) ix
      (ix.edit id fun old => { old with collider := { old.collider with bounds } }) := by
  unfold Performs setBounds
  rw [get_bind]
  exact performs_setCollider_of_held h (fun old => { old with bounds }) (fun _ => rfl) hvalid

theorem setBounds_of_not_isValid {bounds : Rect} (hinvalid : bounds.isValid = false) (id : Nat) :
    setBounds id bounds ix = .error (.invalidBounds id bounds) ix := by
  have hset := setCollider_of_not_isValid { ix.colliderOf id with bounds } hinvalid ix
  unfold setBounds
  rw [get_bind, hset, h.id_colliderOf id]

theorem isValid_colliderOf (id : Nat) : (ix.colliderOf id).bounds.isValid = true := by
  obtain ⟨s, hs, -, hentity⟩ := h.getElem?_known id
  have hbounds := (h.known id).bounds hs
  rw [hentity] at hbounds
  rw [colliderOf]
  cases hget : ix.get? id with
  | none => exact Rect.isValid_zero
  | some entity =>
    rw [hget] at hbounds
    exact hbounds

theorem performs_setTagSet (id : Nat) (tags : TagSet) :
    Performs (setTagSet id tags) ix
      (ix.edit id fun old => { old with collider := { old.collider with tags } }) := by
  unfold Performs setTagSet
  rw [get_bind]
  exact performs_setCollider_of_held h (fun old => { old with tags }) (fun _ => rfl)
    (isValid_colliderOf h id)

theorem performs_setTags {tags : List Nat} (hrange : tags.find? (tagCount ≤ ·) = none) (id : Nat) :
    Performs (setTags id tags) ix (ix.edit id fun old =>
      { old with collider := { old.collider with tags := .ofList tags } }) := by
  unfold Performs setTags
  rw [TagSet.foldlM_set?_of_none hrange]
  exact performs_setTagSet h id (.ofList tags)

end Performs

theorem setTags_of_some {tags : List Nat} {bad : Nat}
    (hbad : tags.find? (tagCount ≤ ·) = some bad) (id : Nat) (ix : EntityIndex) :
    setTags id tags ix = .error (.tagOutOfRange bad) ix := by
  unfold setTags
  rw [TagSet.foldlM_set?_of_some hbad]
  rfl

theorem getOrAdd_eq (id : Nat) (ix : EntityIndex) :
    getOrAdd id ix =
      .ok (((ix.known id).slots[ix.slotNumber id]?.map (·.entity)).getD (.blank id))
        (ix.known id) := by
  unfold getOrAdd
  rw [bind_of_ok (slotFor_eq id ix)]
  rfl

end EntityIndex
end SpriteField
