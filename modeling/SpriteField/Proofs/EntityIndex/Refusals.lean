import SpriteField.Proofs.EntityIndex.Assertions
import SpriteField.Proofs.EntityIndex.Calls

/-!
# When calls of the entity index are refused

A call that changes entities is refused exactly if what it is given is invalid, for the first reason
in the order of the checks.  A refusal leaves the whole index as it was, and the faults that only a
broken index could show never occur.
-/

namespace SpriteField
namespace EntityIndex

/-- The sprite can be drawn: its depth and its transform are finite, and its texture is a valid
rectangle of whole texels. -/
def soundSprite (sprite : Sprite) : Bool :=
  sprite.depth.isFinite && (sprite.texture.isValid && sprite.texture.isWhole) &&
    sprite.transform.isFinite

/-- The sprite has the fault. -/
def hasFault (sprite : Sprite) : SpriteFault → Bool
  | .depth => !sprite.depth.isFinite
  | .texture => !(sprite.texture.isValid && sprite.texture.isWhole)
  | .transform => !sprite.transform.isFinite

theorem spriteFault?_eq_find? (sprite : Sprite) :
    spriteFault? sprite = [.depth, .texture, .transform].find? (hasFault sprite) := by
  simp only [spriteFault?, List.find?_cons, List.find?_nil, hasFault]
  cases sprite.depth.isFinite with
  | false => rfl
  | true =>
    cases sprite.texture.isValid <;> cases sprite.texture.isWhole <;>
      cases sprite.transform.isFinite <;> rfl

theorem spriteFault?_eq_none_iff (sprite : Sprite) :
    spriteFault? sprite = none ↔ soundSprite sprite = true := by
  rw [spriteFault?_eq_find?, List.find?_eq_none]
  simp [hasFault, soundSprite, and_assoc]

theorem exists_spriteFault {sprite : Sprite} (h : soundSprite sprite = false) :
    ∃ fault, spriteFault? sprite = some fault := by
  apply Option.ne_none_iff_exists'.mp
  rw [ne_eq, spriteFault?_eq_none_iff, h]
  exact Bool.false_ne_true

theorem hasFault_of_spriteFault? {sprite : Sprite} {fault : SpriteFault}
    (h : spriteFault? sprite = some fault) : hasFault sprite fault = true := by
  rw [spriteFault?_eq_find?] at h
  exact List.find?_some h

/-- In this state of the index every call that changes entities is refused on invalid input only,
and a refusal changes nothing. -/
structure RefusesExactly (ix : EntityIndex) : Prop where
  setCollider : ∀ collider : Collider,
    (setCollider collider ix = .error (.invalidBounds collider.id collider.bounds) ix ↔
      collider.bounds.isValid = false) ∧
    (succeeds (setCollider collider) ix = true ↔ collider.bounds.isValid = true)
  setBounds : ∀ (id : Nat) (bounds : Rect),
    (setBounds id bounds ix = .error (.invalidBounds id bounds) ix ↔ bounds.isValid = false) ∧
    (succeeds (setBounds id bounds) ix = true ↔ bounds.isValid = true)
  setSprite : ∀ (id : Nat) (sprite : Sprite),
    ((∃ fault, hasFault sprite fault = true ∧
        setSprite id sprite ix = .error (.invalidSprite id fault) ix) ↔
      soundSprite sprite = false) ∧
    (succeeds (setSprite id sprite) ix = true ↔ soundSprite sprite = true)
  /-- The bounds are checked before the sprite. -/
  set : ∀ entity : Entity,
    (set entity ix = .error (.invalidBounds entity.id entity.collider.bounds) ix ↔
      entity.collider.bounds.isValid = false) ∧
    ((∃ fault, hasFault entity.sprite fault = true ∧
        set entity ix = .error (.invalidSprite entity.id fault) ix) ↔
      entity.collider.bounds.isValid = true ∧ soundSprite entity.sprite = false) ∧
    (succeeds (set entity) ix = true ↔
      entity.collider.bounds.isValid = true ∧ soundSprite entity.sprite = true)
  /-- The first number that is no tag is named. -/
  setTags : ∀ (id : Nat) (tags : List Nat),
    (∀ tag, setTags id tags ix = .error (.tagOutOfRange tag) ix ↔
      tags.find? (tagCount ≤ ·) = some tag) ∧
    (succeeds (setTags id tags) ix = true ↔ ∀ tag ∈ tags, tag < tagCount)
  setTagSet : ∀ (id : Nat) (tags : TagSet), succeeds (setTagSet id tags) ix = true
  getOrAdd : ∀ id : Nat, succeeds (getOrAdd id) ix = true
  unchanged : ∀ (call : Call) (error : EngineError) (ix' : EntityIndex),
    call.program ix = .error error ix' → ix' = ix ∧ ∀ fault, error ≠ .inconsistent fault
  /-- The update that asserts whose entries it removes is the update. -/
  asserted : ∀ (collider : Collider) (slot : Nat) (ix' : EntityIndex),
    slotFor collider.id ix = .ok slot ix' →
      replaceColliderBy leaveChunkAsserting leaveTagAsserting slot collider ix' =
        replaceCollider slot collider ix'

theorem not_inconsistent_of_refusal? {call : Call} {error : EngineError}
    (hrefusal : call.refusal? = some error) (fault : ConsistencyFault) :
    error ≠ .inconsistent fault := by
  rintro rfl
  cases call with
  | set entity =>
    rw [Call.refusal?] at hrefusal
    split at hrefusal
    · simp at hrefusal
    · simp at hrefusal
  | _ => simp [Call.refusal?] at hrefusal

section Exact

variable {ix : EntityIndex} (h : ix.Consistent)
include h

theorem exact_setCollider (collider : Collider) :
    (setCollider collider ix = .error (.invalidBounds collider.id collider.bounds) ix ↔
      collider.bounds.isValid = false) ∧
    (succeeds (setCollider collider) ix = true ↔ collider.bounds.isValid = true) := by
  apply refused_iff_of_cases
  · exact succeeds_of_error
  · intro hinvalid
    exact setCollider_of_not_isValid collider hinvalid ix
  · intro hvalid
    exact (performs_setCollider h hvalid).succeeds

theorem exact_setBounds (id : Nat) (bounds : Rect) :
    (setBounds id bounds ix = .error (.invalidBounds id bounds) ix ↔ bounds.isValid = false) ∧
    (succeeds (setBounds id bounds) ix = true ↔ bounds.isValid = true) := by
  apply refused_iff_of_cases
  · exact succeeds_of_error
  · intro hinvalid
    exact setBounds_of_not_isValid h hinvalid id
  · intro hvalid
    exact (performs_setBounds h hvalid id).succeeds

theorem exact_setSprite (id : Nat) (sprite : Sprite) :
    ((∃ fault, hasFault sprite fault = true ∧
        setSprite id sprite ix = .error (.invalidSprite id fault) ix) ↔
      soundSprite sprite = false) ∧
    (succeeds (setSprite id sprite) ix = true ↔ soundSprite sprite = true) := by
  apply refused_iff_of_cases
  · rintro ⟨fault, -, hrefused⟩
    exact succeeds_of_error hrefused
  · intro hunsound
    obtain ⟨fault, hfault⟩ := exists_spriteFault hunsound
    exact ⟨fault, hasFault_of_spriteFault? hfault, setSprite_of_some hfault id ix⟩
  · intro hsound
    exact (performs_setSprite h ((spriteFault?_eq_none_iff sprite).mpr hsound) id).succeeds

theorem exact_set (entity : Entity) :
    (set entity ix = .error (.invalidBounds entity.id entity.collider.bounds) ix ↔
      entity.collider.bounds.isValid = false) ∧
    ((∃ fault, hasFault entity.sprite fault = true ∧
        set entity ix = .error (.invalidSprite entity.id fault) ix) ↔
      entity.collider.bounds.isValid = true ∧ soundSprite entity.sprite = false) ∧
    (succeeds (set entity) ix = true ↔
      entity.collider.bounds.isValid = true ∧ soundSprite entity.sprite = true) := by
  cases hvalid : entity.collider.bounds.isValid with
  | false =>
    have hrefused := set_of_not_isValid hvalid ix
    simp [hrefused, succeeds_of_error hrefused]
  | true =>
    cases hsound : soundSprite entity.sprite with
    | false =>
      obtain ⟨fault, hfault⟩ := exists_spriteFault hsound
      have hrefused := set_of_some hvalid hfault ix
      simp [hrefused, succeeds_of_error hrefused, hasFault_of_spriteFault? hfault]
    | true =>
      obtain ⟨ix', hdone, -⟩ :=
        performs_set h hvalid ((spriteFault?_eq_none_iff entity.sprite).mpr hsound)
      simp [hdone, succeeds_of_ok hdone]

theorem exact_setTags (id : Nat) (tags : List Nat) :
    (∀ tag, setTags id tags ix = .error (.tagOutOfRange tag) ix ↔
      tags.find? (tagCount ≤ ·) = some tag) ∧
    (succeeds (setTags id tags) ix = true ↔ ∀ tag ∈ tags, tag < tagCount) := by
  cases hfind : tags.find? (tagCount ≤ ·) with
  | some bad =>
    have hrefused := setTags_of_some hfind id ix
    have hbad : tagCount ≤ bad := by simpa using List.find?_some hfind
    rw [hrefused, succeeds_of_error hrefused]
    constructor
    · simp
    · simp only [Bool.false_eq_true, false_iff, not_forall, not_lt]
      exact ⟨bad, List.mem_of_find?_eq_some hfind, hbad⟩
  | none =>
    obtain ⟨ix', hdone, -⟩ := performs_setTags h hfind id
    rw [hdone, succeeds_of_ok hdone]
    constructor
    · simp
    · simpa using List.find?_eq_none.mp hfind

theorem Consistent.refusesExactly : RefusesExactly ix where
  setCollider := exact_setCollider h
  setBounds := exact_setBounds h
  setSprite := exact_setSprite h
  set := exact_set h
  setTags := exact_setTags h
  setTagSet id tags := (performs_setTagSet h id tags).succeeds
  getOrAdd id := succeeds_of_ok (getOrAdd_eq id ix)
  unchanged := by
    intro call error ix' herror
    cases hrefusal : call.refusal? with
    | none =>
      obtain ⟨ix₁, hdone, -⟩ := h.performs hrefusal
      rw [hdone] at herror
      cases herror
    | some reason =>
      rw [h.refused hrefusal] at herror
      cases herror
      exact ⟨rfl, not_inconsistent_of_refusal? hrefusal⟩
  asserted := by
    intro collider slot ix' hslot
    rw [slotFor_eq] at hslot
    cases hslot
    exact (h.known collider.id).replaceCollider_asserting _ collider

end Exact

/-- In every state that calls reach from an empty index, a call is refused exactly on invalid
input, and a refused call changes nothing. -/
theorem run_refusesExactly {grid : Grid} {start : EntityIndex} (hnew : new grid = .ok start)
    (calls : List Call) : RefusesExactly (start.run calls) :=
  (consistent_run hnew calls).1.refusesExactly

/-- Bounds with a corner past the other one, and a list of numbers of which two are no tags. -/
theorem refuses_inverted_bounds :
    let ix := (onGrid .standard).run
      [.setCollider ⟨7, .ofSize .zero .zero .one .one, .ofList [3]⟩, .getOrAdd 9]
    let inverted : Rect := ⟨.one, .zero, .zero, .one⟩
    new .standard = .ok (onGrid .standard) ∧ RefusesExactly ix ∧
      setBounds 7 inverted ix = .error (.invalidBounds 7 inverted) ix ∧
      setTags 9 [2, 300, 400] ix = .error (.tagOutOfRange 300) ix := by
  intro ix inverted
  have hnew : new .standard = .ok (onGrid .standard) := rfl
  have hexact : RefusesExactly ix := run_refusesExactly hnew _
  exact ⟨hnew, hexact, (hexact.setBounds 7 inverted).1.mpr (by decide),
    ((hexact.setTags 9 [2, 300, 400]).1 300).mpr (by decide)⟩

end EntityIndex
end SpriteField
