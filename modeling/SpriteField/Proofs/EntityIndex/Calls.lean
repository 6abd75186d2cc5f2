import SpriteField.EntityIndex.Drawing
import SpriteField.EntityIndex.Search
import SpriteField.Proofs.EntityIndex.Edit

/-!
# Calls of the entity index

Whether a call is refused, and why, depends on the call alone.  A refused call leaves the whole
index as it was; any other is carried out, and does to the entities what `edit` says.  Every call
preserves consistency, so every state that calls can reach is consistent.
-/

namespace SpriteField
namespace EntityIndex

inductive Call where
  | set (entity : Entity)
  | setCollider (collider : Collider)
  | setSprite (id : Nat) (sprite : Sprite)
  | setBounds (id : Nat) (bounds : Rect)
  | setTagSet (id : Nat) (tags : TagSet)
  | setTags (id : Nat) (tags : List Nat)
  | getOrAdd (id : Nat)
  | searchAll (query : Query)
  | search (query : Query) (buffer : Array Nat)
  | allVertices
  | resetCounters

/-- The index after a call, whether or not it was refused. -/
def after (ix : EntityIndex) : Call → EntityIndex
  | .set entity => stateAfter (set entity) ix
  | .setCollider collider => stateAfter (setCollider collider) ix
  | .setSprite id sprite => stateAfter (setSprite id sprite) ix
  | .setBounds id bounds => stateAfter (setBounds id bounds) ix
  | .setTagSet id tags => stateAfter (setTagSet id tags) ix
  | .setTags id tags => stateAfter (setTags id tags) ix
  | .getOrAdd id => stateAfter (getOrAdd id) ix
  | .searchAll query => (ix.searchAll query).2
  | .search query buffer => (ix.search query buffer).2
  | .allVertices => ix.allVertices.2
  | .resetCounters => ix.resetCounters

def run (ix : EntityIndex) (calls : List Call) : EntityIndex :=
  calls.foldl after ix

/-! ## What a call is to do -/

/-- The program of a call.  A call that only reads is a program that is never refused. -/
def Call.program : Call → IndexM Unit
  | .set entity => EntityIndex.set entity
  | .setCollider collider => EntityIndex.setCollider collider
  | .setSprite id sprite => EntityIndex.setSprite id sprite
  | .setBounds id bounds => EntityIndex.setBounds id bounds
  | .setTagSet id tags => EntityIndex.setTagSet id tags
  | .setTags id tags => EntityIndex.setTags id tags
  | .getOrAdd id => discard (EntityIndex.getOrAdd id)
  | .searchAll query => modify fun ix => (ix.searchAll query).2
  | .search query buffer => modify fun ix => (ix.search query buffer).2
  | .allVertices => modify fun ix => ix.allVertices.2
  | .resetCounters => modify EntityIndex.resetCounters

theorem discard_getOrAdd (id : Nat) (ix : EntityIndex) :
    (discard (getOrAdd id) : IndexM Unit) ix = .ok ⟨⟩ (ix.known id) := by
  change (getOrAdd id >>= fun _ => pure PUnit.unit) ix = _
  rw [bind_of_ok (getOrAdd_eq id ix)]
  rfl

theorem after_eq_stateAfter (ix : EntityIndex) (call : Call) :
    ix.after call = stateAfter call.program ix := by
  cases call with
  | getOrAdd id =>
    change stateAfter (getOrAdd id) ix = stateAfter (discard (getOrAdd id)) ix
    rw [stateAfter_of_ok (getOrAdd_eq id ix), stateAfter_of_ok (discard_getOrAdd id ix)]
  | _ => rfl

/-- The entity that a call is about, and what becomes of it if the call is carried out. -/
def Call.edit? : Call → Option (Nat × (Entity → Entity))
  | .set entity => some (entity.id, fun _ => entity)
  | .setCollider collider => some (collider.id, fun old => { old with collider })
  | .setSprite id sprite => some (id, fun old => { old with sprite })
  | .setBounds id bounds =>
    some (id, fun old => { old with collider := { old.collider with bounds } })
  | .setTagSet id tags => some (id, fun old => { old with collider := { old.collider with tags } })
  | .setTags id tags =>
    some (id, fun old => { old with collider := { old.collider with tags := .ofList tags } })
  | .getOrAdd id => some (id, fun old => old)
  | .searchAll _ | .search _ _ | .allVertices | .resetCounters => none

/-- Why a call is refused.  The state of the index does not matter. -/
def Call.refusal? : Call → Option EngineError
  | .set entity =>
    if entity.collider.bounds.isValid then
      (spriteFault? entity.sprite).map (.invalidSprite entity.id)
    else some (.invalidBounds entity.id entity.collider.bounds)
  | .setCollider collider =>
    if collider.bounds.isValid then none else some (.invalidBounds collider.id collider.bounds)
  | .setSprite id sprite => (spriteFault? sprite).map (.invalidSprite id)
  | .setBounds id bounds => if bounds.isValid then none else some (.invalidBounds id bounds)
  | .setTags _ tags => (tags.find? (tagCount ≤ ·)).map .tagOutOfRange
  | .setTagSet _ _ | .getOrAdd _ | .searchAll _ | .search _ _ | .allVertices | .resetCounters =>
    none

/-- Where a call leads if it is carried out, memberships and counters apart. -/
def Call.target (call : Call) (ix : EntityIndex) : EntityIndex :=
  match call with
  | .getOrAdd id => ix.known id
  | .allVertices => ix.redraw
  | _ =>
    match call.edit? with
    | some (id, change) => ix.edit id change
    | none => ix

/-- Drawing changes only what is kept for it. -/
theorem exists_redraw_eq (ix : EntityIndex) :
    ∃ drawn stale, ix.redraw = { ix with drawn, stale } := by
  unfold redraw
  split
  · exact ⟨_, _, rfl⟩
  · exact ⟨ix.drawn, ix.stale, rfl⟩

@[simp] theorem grid_target (call : Call) (ix : EntityIndex) :
    (call.target ix).grid = ix.grid := by
  cases call with
  | set | setCollider | setSprite | setBounds | setTagSet | setTags => exact grid_edit ix _ _
  | getOrAdd id => exact grid_known ix id
  | allVertices =>
    obtain ⟨drawn, stale, hredraw⟩ := exists_redraw_eq ix
    change ix.redraw.grid = ix.grid
    rw [hredraw]
  | searchAll | search | resetCounters => rfl

/-! ## What it does -/

theorem Consistent.refused {ix : EntityIndex} (h : ix.Consistent) {call : Call}
    {error : EngineError} (hrefusal : call.refusal? = some error) :
    call.program ix = .error error ix := by
  cases call with
  | set entity =>
    rw [Call.refusal?] at hrefusal
    split at hrefusal
    next hvalid =>
      obtain ⟨fault, hfault, rfl⟩ := Option.map_eq_some_iff.mp hrefusal
      exact set_of_some hvalid hfault ix
    next hinvalid =>
      rw [← Option.some.inj hrefusal]
      exact set_of_not_isValid (Bool.eq_false_iff.mpr hinvalid) ix
  | setCollider collider =>
    rw [Call.refusal?] at hrefusal
    split at hrefusal
    next => cases hrefusal
    next hinvalid =>
      rw [← Option.some.inj hrefusal]
      exact setCollider_of_not_isValid collider (Bool.eq_false_iff.mpr hinvalid) ix
  | setSprite id sprite =>
    obtain ⟨fault, hfault, rfl⟩ := Option.map_eq_some_iff.mp hrefusal
    exact setSprite_of_some hfault id ix
  | setBounds id bounds =>
    rw [Call.refusal?] at hrefusal
    split at hrefusal
    next => cases hrefusal
    next hinvalid =>
      rw [← Option.some.inj hrefusal]
      exact setBounds_of_not_isValid h (Bool.eq_false_iff.mpr hinvalid) id
  | setTags id tags =>
    obtain ⟨bad, hbad, rfl⟩ := Option.map_eq_some_iff.mp hrefusal
    exact setTags_of_some hbad id ix
  | setTagSet | getOrAdd | searchAll | search | allVertices | resetCounters => cases hrefusal

/-- A search counts, and changes nothing else. -/
theorem exists_counters_scan (ix : EntityIndex) (query : Query) (limit : Option Nat) :
    ∃ counters, (ix.scan query limit).2 = { ix with counters } := by
  unfold EntityIndex.scan
  dsimp only
  split
  · exact ⟨_, rfl⟩
  · split
    · exact ⟨_, rfl⟩
    · exact ⟨_, rfl⟩

theorem exists_counters_search (ix : EntityIndex) (query : Query) (buffer : Array Nat) :
    ∃ counters, (ix.search query buffer).2 = { ix with counters } := by
  unfold EntityIndex.search
  split
  · exact ⟨ix.counters, rfl⟩
  · exact exists_counters_scan ix query _

theorem Consistent.performs_of_counters {ix : EntityIndex} (h : ix.Consistent)
    {change : EntityIndex → EntityIndex} {counters : IndexCounters}
    (hchange : change ix = { ix with counters }) : Performs (modify change) ix ix := by
  refine ⟨change ix, rfl, ?_, ?_⟩
  · rw [hchange]
    exact h.congr rfl rfl rfl rfl rfl
  · rw [hchange]
    rfl

theorem Consistent.redraw {ix : EntityIndex} (h : ix.Consistent) : ix.redraw.Consistent := by
  obtain ⟨drawn, stale, hredraw⟩ := exists_redraw_eq ix
  rw [hredraw]
  exact h.congr rfl rfl rfl rfl rfl

theorem Consistent.performs {ix : EntityIndex} (h : ix.Consistent) {call : Call}
    (hrefusal : call.refusal? = none) : Performs call.program ix (call.target ix) := by
  cases call with
  | set entity =>
    rw [Call.refusal?] at hrefusal
    split at hrefusal
    next hvalid => exact performs_set h hvalid (Option.map_eq_none_iff.mp hrefusal)
    next => cases hrefusal
  | setCollider collider =>
    rw [Call.refusal?] at hrefusal
    split at hrefusal
    next hvalid => exact performs_setCollider h hvalid
    next => cases hrefusal
  | setSprite id sprite => exact performs_setSprite h (Option.map_eq_none_iff.mp hrefusal) id
  | setBounds id bounds =>
    rw [Call.refusal?] at hrefusal
    split at hrefusal
    next hvalid => exact performs_setBounds h hvalid id
    next => cases hrefusal
  | setTagSet id tags => exact performs_setTagSet h id tags
  | setTags id tags => exact performs_setTags h (Option.map_eq_none_iff.mp hrefusal) id
  | getOrAdd id => exact ⟨_, discard_getOrAdd id ix, h.known id, rfl⟩
  | searchAll query =>
    obtain ⟨counters, hcounters⟩ := exists_counters_scan ix query none
    exact h.performs_of_counters hcounters
  | search query buffer =>
    obtain ⟨counters, hcounters⟩ := exists_counters_search ix query buffer
    exact h.performs_of_counters hcounters
  | allVertices => exact ⟨ix.redraw, rfl, h.redraw, rfl⟩
  | resetCounters => exact h.performs_of_counters rfl

theorem Performs.succeeds {program : IndexM Unit} {ix target : EntityIndex}
    (h : Performs program ix target) : succeeds program ix = true := by
  obtain ⟨ix', hdone, -⟩ := h
  exact succeeds_of_ok hdone

/-- A call that is refused leaves the index alone, and any other leads to its target. -/
theorem Consistent.after_cases {ix : EntityIndex} (h : ix.Consistent) (call : Call) :
    (succeeds call.program ix = false ∧ ix.after call = ix) ∨
      (succeeds call.program ix = true ∧ (ix.after call).Consistent ∧
        (ix.after call).withoutMemberships = (call.target ix).withoutMemberships) := by
  rw [after_eq_stateAfter]
  cases hrefusal : call.refusal? with
  | some error =>
    have hrefused := h.refused hrefusal
    exact Or.inl ⟨succeeds_of_error hrefused, stateAfter_of_error hrefused⟩
  | none =>
    obtain ⟨ix', hdone, hconsistent, hframe⟩ := h.performs hrefusal
    rw [stateAfter_of_ok hdone]
    exact Or.inr ⟨succeeds_of_ok hdone, hconsistent, hframe⟩

theorem Consistent.after {ix : EntityIndex} (h : ix.Consistent) (call : Call) :
    (ix.after call).Consistent ∧ (ix.after call).grid = ix.grid := by
  rcases h.after_cases call with ⟨-, hsame⟩ | ⟨-, hconsistent, hframe⟩
  · rw [hsame]
    exact ⟨h, rfl⟩
  · exact ⟨hconsistent, (EntityIndex.mk.inj hframe).1.trans (grid_target call ix)⟩

/-! ## Runs -/

theorem Consistent.run {ix : EntityIndex} (h : ix.Consistent) (calls : List Call) :
    (ix.run calls).Consistent ∧ (ix.run calls).grid = ix.grid := by
  unfold EntityIndex.run
  induction calls generalizing ix with
  | nil => exact ⟨h, rfl⟩
  | cons call calls ih =>
    obtain ⟨hafter, hgrid⟩ := h.after call
    obtain ⟨hrun, hsame⟩ := ih hafter
    exact ⟨hrun, hsame.trans hgrid⟩

theorem new_eq_ok {grid : Grid} {start : EntityIndex} (h : new grid = .ok start) :
    start = onGrid grid ∧ grid.validate = .ok () := by
  unfold new at h
  cases hgrid : grid.validate with
  | error error =>
    rw [hgrid] at h
    cases h
  | ok value =>
    rw [hgrid] at h
    cases h
    exact ⟨rfl, rfl⟩

/-- Every state that calls reach from an empty index is consistent. -/
theorem consistent_run {grid : Grid} {start : EntityIndex} (h : new grid = .ok start)
    (calls : List Call) : (start.run calls).Consistent ∧ (start.run calls).grid = grid := by
  obtain ⟨rfl, hgrid⟩ := new_eq_ok h
  exact (consistent_onGrid hgrid).run calls

end EntityIndex
end SpriteField
