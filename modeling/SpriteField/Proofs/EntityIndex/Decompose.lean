import SpriteField.Proofs.EntityIndex.Refusals
import SpriteField.Proofs.EntityIndex.Replay

/-!
# An entity and its parts

The memberships of an entity do not depend on its sprite, and its quad is drawn again whenever
either of its parts is set.  So an update of the collider comes to the same before and after one of
the sprite, counters included, and setting a whole entity is setting both parts.
-/

namespace SpriteField
namespace EntityIndex

/-! ## Updates next to a change of a sprite -/

theorem keepsMemberships_sprite (sprite : Sprite) :
    KeepsMemberships fun s => s.withEntity { s.entity with sprite } :=
  ⟨fun _ => rfl, fun _ => rfl, fun _ => rfl⟩

@[simp] theorem chunkRefs_withSprite (ix : EntityIndex) (slot other : Nat) (sprite : Sprite) :
    (ix.withSprite slot sprite).chunkRefs other = ix.chunkRefs other :=
  Array.toList_inj.mp
    (congrFun ((keepsMemberships_sprite sprite).chunkRefList_modifySlot slot) other)

@[simp] theorem tagRefs_withSprite (ix : EntityIndex) (slot other : Nat) (sprite : Sprite) :
    (ix.withSprite slot sprite).tagRefs other = ix.tagRefs other :=
  Array.toList_inj.mp
    (congrFun ((keepsMemberships_sprite sprite).tagRefList_modifySlot slot) other)

theorem modifySlot_comm (ix : EntityIndex) (slot other : Nat) {change change' : Slot → Slot}
    (h : ∀ s, change (change' s) = change' (change s)) :
    (ix.modifySlot slot change').modifySlot other change =
      (ix.modifySlot other change).modifySlot slot change' := by
  have hslots : (ix.slots.modify slot change').modify other change =
      (ix.slots.modify other change).modify slot change' := by
    apply Array.ext_getElem?
    intro i
    simp only [Array.getElem?_modify]
    split <;> split <;> simp [Function.comp_def, h]
  exact congrArg (fun slots => { ix with slots }) hslots

theorem modifySlot_withSprite (ix : EntityIndex) (slot other : Nat) (sprite : Sprite)
    {change : Slot → Slot}
    (h : ∀ s : Slot, change (s.withEntity { s.entity with sprite }) =
      (change s).withEntity { (change s).entity with sprite }) :
    (ix.withSprite slot sprite).modifySlot other change =
      (ix.modifySlot other change).withSprite slot sprite :=
  congrArg (fun ix => { ix with stale := true }) (modifySlot_comm ix slot other h)

/-- Setting the sprite of any slot before the program or after it comes to the same. -/
def CommutesWithSprites (program : IndexM α) : Prop :=
  ∀ (slot : Nat) (sprite : Sprite),
    Commutes (fun ix : EntityIndex => ix.withSprite slot sprite) program

theorem commutes_repointChunk (slot chunk : Nat) (move : Relocation) :
    CommutesWithSprites (repointChunk slot chunk move) := by
  intro painted sprite
  apply commutes_get_bind
  · intro ix
    simp only [chunkRefs_withSprite]
  · intro ix
    split
    · apply commutes_modify
      intro ix
      exact congrArg countFixup (modifySlot_withSprite ix painted slot sprite fun _ => rfl)
    · exact commutes_throw _

theorem commutes_leaveChunk (slot : Nat) (kept : Span) (ref : BackRef) :
    CommutesWithSprites (leaveChunk slot kept ref) := by
  intro painted sprite
  apply commutes_get_bind
  · intro ix
    rfl
  · intro ix
    split
    · exact commutes_throw _
    · split
      · exact commutes_throw _
      · apply Commutes.bind
        · exact commutes_modify fun _ => rfl
        · intro _
          split
          · apply (commutes_repointChunk _ _ _ painted sprite).bind
            intro _
            exact commutes_modify fun _ => rfl
          · exact commutes_modify fun _ => rfl

theorem commutes_leaveChunks (slot : Nat) (kept : Span) :
    CommutesWithSprites (leaveChunks slot kept) := by
  intro painted sprite
  apply commutes_get_bind
  · intro ix
    simp only [chunkRefs_withSprite]
  · intro ix
    apply Commutes.bind
    · apply commutes_modify
      intro ix
      exact modifySlot_withSprite ix painted slot sprite fun _ => rfl
    · intro _
      exact commutes_forM (fun ref => commutes_leaveChunk slot kept ref painted sprite) _

theorem commutes_joinChunk (entry : ChunkEntry) (chunk : Nat) :
    CommutesWithSprites (joinChunk entry chunk) := by
  intro painted sprite
  apply commutes_get_bind
  · intro ix
    rfl
  · intro ix
    split
    · exact commutes_throw _
    · apply Commutes.bind
      · exact commutes_modify fun _ => rfl
      · exact fun _ => commutes_pure _

theorem commutes_repointTag (slot tag : Nat) (move : Relocation) :
    CommutesWithSprites (repointTag slot tag move) := by
  intro painted sprite
  apply commutes_get_bind
  · intro ix
    simp only [tagRefs_withSprite]
  · intro ix
    split
    · apply commutes_modify
      intro ix
      exact congrArg countFixup (modifySlot_withSprite ix painted slot sprite fun _ => rfl)
    · exact commutes_throw _

theorem commutes_leaveTag (slot : Nat) (ref : BackRef) :
    CommutesWithSprites (leaveTag slot ref) := by
  intro painted sprite
  apply commutes_get_bind
  · intro ix
    rfl
  · intro ix
    split
    · exact commutes_throw _
    · split
      · exact commutes_throw _
      · apply Commutes.bind
        · exact commutes_modify fun _ => rfl
        · intro _
          split
          · apply (commutes_repointTag _ _ _ painted sprite).bind
            intro _
            exact commutes_modify fun _ => rfl
          · exact commutes_modify fun _ => rfl

theorem commutes_leaveTags (slot : Nat) : CommutesWithSprites (leaveTags slot) := by
  intro painted sprite
  apply commutes_get_bind
  · intro ix
    simp only [tagRefs_withSprite]
  · intro ix
    apply Commutes.bind
    · apply commutes_modify
      intro ix
      exact modifySlot_withSprite ix painted slot sprite fun _ => rfl
    · intro _
      exact commutes_forM (fun ref => commutes_leaveTag slot ref painted sprite) _

theorem commutes_joinTag (slot tag : Nat) : CommutesWithSprites (joinTag slot tag) := by
  intro painted sprite
  apply commutes_get_bind
  · intro ix
    rfl
  · intro ix
    apply Commutes.bind
    · exact commutes_modify fun _ => rfl
    · exact fun _ => commutes_pure _

/-- Both parts of the entity are in the quad that is drawn last, whichever was set first. -/
theorem settle_withSprite (ix : EntityIndex) (painted slot : Nat) (sprite : Sprite)
    (collider : Collider) (chunkRefs tagRefs : List BackRef) :
    (ix.withSprite painted sprite).settle slot collider chunkRefs tagRefs =
      (ix.settle slot collider chunkRefs tagRefs).withSprite painted sprite := by
  unfold settle
  dsimp only
  rw [modifySlot_withSprite ix painted slot sprite fun _ => rfl]
  rfl

theorem commutes_replaceCollider (slot : Nat) (collider : Collider) :
    CommutesWithSprites (replaceCollider slot collider) := by
  intro painted sprite
  apply commutes_get_bind
  · intro ix
    rfl
  · intro ix
    apply Commutes.bind
    · exact commutes_modify fun _ => rfl
    · intro _
      apply (commutes_leaveChunks _ _ painted sprite).bind
      intro _
      apply (commutes_leaveTags _ painted sprite).bind
      intro _
      apply (commutes_mapM (fun chunk => commutes_joinChunk _ chunk painted sprite) _).bind
      intro chunkRefs
      apply (commutes_mapM (fun tag => commutes_joinTag _ tag painted sprite) _).bind
      intro tagRefs
      apply commutes_modify
      intro ix
      exact settle_withSprite ix painted slot sprite collider chunkRefs tagRefs

/-! ## The parts of an entity -/

theorem setCollider_of_slot {ix : EntityIndex} {slot : Nat} {collider : Collider}
    (hvalid : collider.bounds.isValid = true) (hslot : ix.slotOf[collider.id]? = some slot) :
    setCollider collider ix = replaceCollider slot collider ix := by
  unfold setCollider
  rw [bind_of_ok (checkCollider_of_isValid hvalid ix), bind_of_ok (slotFor_eq _ ix),
    known_of_some hslot, slotNumber_of_some hslot]

theorem setSprite_of_slot {ix : EntityIndex} {id slot : Nat} {sprite : Sprite}
    (hsound : spriteFault? sprite = none) (hslot : ix.slotOf[id]? = some slot) :
    setSprite id sprite ix = .ok ⟨⟩ (ix.withSprite slot sprite) := by
  rw [setSprite_of_none hsound, known_of_some hslot, slotNumber_of_some hslot]

/-- Setting an entity leads from `ix` to `after`, and so does setting its collider and its sprite,
in either order. -/
structure Decomposed (ix after : EntityIndex) (entity : Entity) : Prop where
  whole : set entity ix = .ok ⟨⟩ after
  colliderFirst :
    (do setCollider entity.collider; setSprite entity.id entity.sprite) ix = .ok ⟨⟩ after
  spriteFirst :
    (do setSprite entity.id entity.sprite; setCollider entity.collider) ix = .ok ⟨⟩ after
  slot : after.slotOf[entity.id]? = some (ix.slotNumber entity.id)
  held : after.get? entity.id = some entity

theorem Consistent.exists_decomposed {ix : EntityIndex} (h : ix.Consistent) {entity : Entity}
    (hvalid : entity.collider.bounds.isValid = true)
    (hsound : spriteFault? entity.sprite = none) : ∃ after, Decomposed ix after entity := by
  obtain ⟨placed, hreplace, -, hframe⟩ := replaceCollider_known h hvalid
  obtain ⟨after, hset, -, hafter⟩ := performs_set h hvalid hsound
  have heq : after = placed.withSprite (ix.slotNumber entity.id) entity.sprite := by
    rw [set_of_replace hvalid hsound hreplace] at hset
    exact (EStateM.Result.ok.inj hset).2.symm
  have hslot : placed.slotOf[entity.id]? = some (ix.slotNumber entity.id) := by
    have hslotOf : placed.slotOf = (ix.known entity.id).slotOf :=
      (EntityIndex.mk.inj hframe).2.2.1
    rw [hslotOf, slotOf_known]
  refine ⟨after, hset, ?_, ?_, ?_, ?_⟩
  · rw [bind_of_ok (setCollider_of_replace hvalid hreplace), setSprite_of_slot hsound hslot, heq]
  · have hpainted : ((ix.known entity.id).withSprite (ix.slotNumber entity.id)
        entity.sprite).slotOf[entity.collider.id]? = some (ix.slotNumber entity.id) :=
      slotOf_known ix entity.id
    rw [bind_of_ok (setSprite_of_none hsound entity.id ix), setCollider_of_slot hvalid hpainted,
      heq]
    exact (commutes_replaceCollider _ _ _ entity.sprite).of_ok hreplace
  · rw [heq]
    exact hslot
  · rw [← get?_withoutMemberships, hafter, get?_withoutMemberships, h.get?_edit,
      Function.update_self]

/-- In every state that calls reach from an empty index, setting an entity and setting its parts
come to the same index. -/
theorem run_decomposes {grid : Grid} {start : EntityIndex} (hnew : new grid = .ok start)
    (calls : List Call) {entity : Entity} (hvalid : entity.collider.bounds.isValid = true)
    (hsound : soundSprite entity.sprite = true) :
    ∃ after, Decomposed (start.run calls) after entity :=
  (consistent_run hnew calls).1.exists_decomposed hvalid
    ((spriteFault?_eq_none_iff entity.sprite).mpr hsound)

/-- The entity is in two chunks and shares its tag with another one, which is set after it. -/
theorem decomposes_known_entity :
    let wide : Rect := .ofSize .zero .zero (.ofNat 40) .one
    let ix := (onGrid .standard).run
      [.setCollider ⟨1, wide, .ofList [3]⟩, .setCollider ⟨7, wide, .ofList [3]⟩]
    let entity : Entity :=
      ⟨⟨1, .ofSize .one .one .one .one, .ofList [3, 200]⟩, { Sprite.plain with depth := .one }⟩
    new .standard = .ok (onGrid .standard) ∧ entity.collider.bounds.isValid = true ∧
      soundSprite entity.sprite = true ∧ ∃ after, Decomposed ix after entity := by
  intro wide ix entity
  have hnew : new .standard = .ok (onGrid .standard) := rfl
  have hvalid : entity.collider.bounds.isValid = true := by decide
  have hsound : soundSprite entity.sprite = true := by decide
  exact ⟨hnew, hvalid, hsound, run_decomposes hnew _ hvalid hsound⟩

end EntityIndex
end SpriteField
