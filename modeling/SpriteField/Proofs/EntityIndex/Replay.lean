import SpriteField.Proofs.EntityIndex.Representation

/-!
# The index as a map

To its users the index is a map from ids to entities that remembers in which order the ids were
first touched.  Calls that were refused leave no trace there: replaying the others on a plain map
gives the same entities.  Slots, tables and cached quads do not show.
-/

namespace SpriteField
namespace EntityIndex

/-! ## Entities under edits -/

def ids (ix : EntityIndex) : List Nat :=
  ix.entities.map (·.id)

theorem get?_withoutMemberships (ix : EntityIndex) (id : Nat) :
    ix.withoutMemberships.get? id = ix.get? id := by
  change ((ix.slotOf[id]?).bind fun slot => ix.withoutMemberships.slots[slot]?).map (·.entity) =
    ((ix.slotOf[id]?).bind fun slot => ix.slots[slot]?).map (·.entity)
  cases ix.slotOf[id]? with
  | none => rfl
  | some slot =>
    simp only [Option.bind_some, getElem?_withoutMemberships, Option.map_map]
    rfl

theorem getElem?_ids (ix : EntityIndex) (i : Nat) :
    ix.ids[i]? = (ix.slots[i]?).map (·.entity.id) :=
  getElem?_entities_id ix i

theorem ids_withoutMemberships (ix : EntityIndex) : ix.withoutMemberships.ids = ix.ids := by
  rw [ids, entities_withoutMemberships, ids]

theorem slotOf_known (ix : EntityIndex) (id : Nat) :
    (ix.known id).slotOf[id]? = some (ix.slotNumber id) := by
  cases hslot : ix.slotOf[id]? with
  | some slot => rw [known_of_some hslot, slotNumber, hslot, Option.getD_some]
  | none =>
    rw [known_of_none hslot, slotNumber, hslot, slotOf_withBlank, if_pos rfl, Option.getD_none]

section Edits

variable {ix : EntityIndex} (h : ix.Consistent)
include h

theorem Consistent.mem_ids_iff {id : Nat} : id ∈ ix.ids ↔ ∃ slot, ix.slotOf[id]? = some slot := by
  rw [List.mem_iff_getElem?]
  refine exists_congr fun slot => ?_
  rw [getElem?_ids, h.slotOf_iff, Option.map_eq_some_iff]

theorem Consistent.get?_known (id : Nat) :
    (ix.known id).get? =
      Function.update ix.get? id (some ((ix.get? id).getD (.blank id))) := by
  funext key
  rw [Function.update_apply]
  split
  next heq =>
    obtain ⟨s, hs, -, hentity⟩ := h.getElem?_known id
    rw [heq, get?_of_slotOf (slotOf_known ix id), hs, Option.map_some, hentity]
  next hne =>
    cases hslot : ix.slotOf[id]? with
    | some slot => rw [known_of_some hslot]
    | none =>
      have hold : (ix.known id).slotOf[key]? = ix.slotOf[key]? := by
        rw [known_of_none hslot, slotOf_withBlank, if_neg hne]
      cases hkey : ix.slotOf[key]? with
      | none => rw [get?_of_none hkey, get?_of_none (hold.trans hkey)]
      | some i =>
        obtain ⟨s, hs, -⟩ := (h.slotOf_iff key i).mp hkey
        have hlt := lt_of_getElem?_eq_some hs
        rw [get?_of_slotOf hkey, get?_of_slotOf (hold.trans hkey), known_of_none hslot,
          getElem?_withBlank, if_neg (Nat.ne_of_lt hlt)]

theorem Consistent.get?_edit (id : Nat) (change : Entity → Entity) :
    (ix.edit id change).get? =
      Function.update ix.get? id (some (change ((ix.get? id).getD (.blank id)))) := by
  funext key
  have hslotOf : (ix.edit id change).slotOf = (ix.known id).slotOf := rfl
  rw [Function.update_apply]
  split
  next heq =>
    obtain ⟨s, hs, -, hentity⟩ := h.getElem?_known id
    rw [heq, get?_of_slotOf (hslotOf ▸ slotOf_known ix id), getElem?_edit, if_pos rfl, hs,
      Option.map_some, Option.map_some, ← hentity]
    rfl
  next hne =>
    have hkept : (ix.edit id change).get? key = (ix.known id).get? key := by
      cases hkey : (ix.known id).slotOf[key]? with
      | none => rw [get?_of_none hkey, get?_of_none (hslotOf ▸ hkey)]
      | some i =>
        rw [get?_of_slotOf hkey, get?_of_slotOf (hslotOf ▸ hkey), getElem?_edit, if_neg]
        -- One slot cannot be that of two ids.
        rintro rfl
        obtain ⟨s, hs, hid⟩ := ((h.known id).slotOf_iff key _).mp hkey
        obtain ⟨s', hs', hid', -⟩ := h.getElem?_known id
        rw [hs] at hs'
        rw [← Option.some.inj hs', hid] at hid'
        exact hne hid'
    rw [hkept, h.get?_known, Function.update_of_ne hne]

theorem Consistent.ids_known (id : Nat) :
    (ix.known id).ids = if id ∈ ix.ids then ix.ids else ix.ids ++ [id] := by
  cases hslot : ix.slotOf[id]? with
  | some slot => rw [known_of_some hslot, if_pos (h.mem_ids_iff.mpr ⟨slot, hslot⟩)]
  | none =>
    have hnew : id ∉ ix.ids := by
      rw [h.mem_ids_iff, hslot]
      simp
    rw [known_of_none hslot, if_neg hnew]
    simp [ids, entities, EntityIndex.withBlank, Slot.blank, Entity.id, Entity.blank,
      Collider.blank]

theorem Consistent.ids_edit {id : Nat} {change : Entity → Entity}
    (hchange : ∀ old : Entity, old.id = id → (change old).id = id) :
    (ix.edit id change).ids = (ix.known id).ids := by
  apply List.ext_getElem?
  intro i
  rw [getElem?_ids, getElem?_ids, getElem?_edit]
  split
  next heq =>
    obtain ⟨s, hs, hid, -⟩ := h.getElem?_known id
    rw [← heq, hs]
    exact congrArg some ((hchange s.entity hid).trans hid.symm)
  next => rfl

/-- The list of entities is the list of ids, each looked up. -/
theorem Consistent.map_some_entities : ix.entities.map some = ix.ids.map ix.get? := by
  apply List.ext_getElem?
  intro i
  rw [List.getElem?_map, List.getElem?_map, getElem?_ids, entities, List.getElem?_map,
    Array.getElem?_toList]
  cases hs : ix.slots[i]? with
  | none => rfl
  | some s =>
    have hget := get?_of_slotOf ((h.slotOf_iff s.entity.id i).mpr ⟨s, hs, rfl⟩)
    rw [hs] at hget
    exact congrArg some hget.symm

end Edits

/-! ## Replaying calls -/

def Call.id? (call : Call) : Option Nat :=
  call.edit?.map (·.1)

/-- What a call does to a plain map.  An id that is not in the map yet starts as a blank entity. -/
def Call.applyTo (call : Call) (map : Nat → Option Entity) : Nat → Option Entity :=
  match call.edit? with
  | some (id, change) => Function.update map id (some (change ((map id).getD (.blank id))))
  | none => map

theorem Call.applyTo_of_ne {call : Call} {id : Nat} (hother : call.id? ≠ some id)
    (map : Nat → Option Entity) : call.applyTo map id = map id := by
  rw [Call.id?] at hother
  rw [Call.applyTo]
  cases hedit : call.edit? with
  | none => rfl
  | some edit =>
    rw [hedit] at hother
    exact Function.update_of_ne (fun heq => hother (congrArg some heq.symm)) _ _

def replay (calls : List Call) : Nat → Option Entity :=
  calls.foldl (fun map call => call.applyTo map) fun _ => none

/-- The ids that calls are about, in order and with repetitions. -/
def touched (calls : List Call) : List Nat :=
  calls.filterMap (·.id?)

/-- The calls that are carried out when all are made in turn. -/
def carriedOut (ix : EntityIndex) : List Call → List Call
  | [] => []
  | call :: calls =>
    if succeeds call.program ix then call :: (ix.after call).carriedOut calls
    else (ix.after call).carriedOut calls

/-- Which calls are carried out does not depend on the states in between. -/
theorem Consistent.carriedOut_eq {ix : EntityIndex} (h : ix.Consistent) (calls : List Call) :
    ix.carriedOut calls = calls.filter (·.refusal?.isNone) := by
  induction calls generalizing ix with
  | nil => rfl
  | cons call calls ih =>
    rw [carriedOut, ih (h.after call).1, List.filter_cons]
    cases hrefusal : call.refusal? with
    | some error => simp [succeeds_of_error (h.refused hrefusal)]
    | none => simp [(h.performs hrefusal).succeeds]

theorem replay_concat (calls : List Call) (call : Call) :
    replay (calls ++ [call]) = call.applyTo (replay calls) := by
  rw [replay, List.foldl_append]
  rfl

theorem eraseDups_concat (xs : List Nat) (x : Nat) :
    (xs ++ [x]).eraseDups = if x ∈ xs.eraseDups then xs.eraseDups else xs.eraseDups ++ [x] := by
  rw [List.eraseDups_append]
  split
  next hmem => simp [List.removeAll, List.mem_eraseDups.mp hmem]
  next hnew => simp [List.removeAll, mt List.mem_eraseDups.mpr hnew, List.eraseDups_cons]

theorem touched_concat (calls : List Call) (call : Call) :
    (touched (calls ++ [call])).eraseDups =
      match call.id? with
      | some id =>
        if id ∈ (touched calls).eraseDups then (touched calls).eraseDups
        else (touched calls).eraseDups ++ [id]
      | none => (touched calls).eraseDups := by
  have happend : touched (calls ++ [call]) = touched calls ++ touched [call] :=
    List.filterMap_append
  rw [happend]
  cases hid : call.id? with
  | none => rw [touched, touched, List.filterMap_cons_none hid, List.filterMap_nil, List.append_nil]
  | some id =>
    have hone : touched [call] = [id] := List.filterMap_cons_some hid
    rw [hone, eraseDups_concat]

theorem Call.id_of_edit? {call : Call} {id : Nat} {change : Entity → Entity}
    (hedit : call.edit? = some (id, change)) (old : Entity) (hid : old.id = id) :
    (change old).id = id := by
  cases call with
  | set | setCollider =>
    cases hedit
    rfl
  | setSprite | setBounds | setTagSet | setTags | getOrAdd =>
    cases hedit
    exact hid
  | searchAll | search | allVertices | resetCounters => cases hedit

section Targets

variable {ix : EntityIndex} (h : ix.Consistent) (call : Call)
include h

theorem Consistent.get?_target : (call.target ix).get? = call.applyTo ix.get? := by
  cases call with
  | set | setCollider | setSprite | setBounds | setTagSet | setTags => exact h.get?_edit _ _
  | getOrAdd id => exact h.get?_known id
  | allVertices =>
    obtain ⟨drawn, stale, hredraw⟩ := exists_redraw_eq ix
    change ix.redraw.get? = ix.get?
    rw [hredraw]
    rfl
  | searchAll | search | resetCounters => rfl

theorem Consistent.ids_target :
    (call.target ix).ids =
      match call.id? with
      | some id => if id ∈ ix.ids then ix.ids else ix.ids ++ [id]
      | none => ix.ids := by
  have hkeep : ∀ {id change}, call.edit? = some (id, change) →
      ∀ old : Entity, old.id = id → (change old).id = id := Call.id_of_edit?
  cases call with
  | set | setCollider | setSprite | setBounds | setTagSet | setTags =>
    exact (h.ids_edit (hkeep rfl)).trans (h.ids_known _)
  | getOrAdd id => exact h.ids_known id
  | allVertices =>
    obtain ⟨drawn, stale, hredraw⟩ := exists_redraw_eq ix
    change ix.redraw.ids = ix.ids
    rw [hredraw]
    rfl
  | searchAll | search | resetCounters => rfl

end Targets

/-! ## Runs -/

/-- The index answers what a map does on which `done` was replayed. -/
structure Replays (ix : EntityIndex) (done : List Call) : Prop where
  consistent : ix.Consistent
  get? : ix.get? = replay done
  ids : ix.ids = (touched done).eraseDups

theorem replays_onGrid {grid : Grid} (hgrid : grid.validate = .ok ()) :
    Replays (onGrid grid) [] where
  consistent := consistent_onGrid hgrid
  get? := rfl
  ids := rfl

/-- A call that is carried out is one more to replay. -/
theorem Replays.after {ix : EntityIndex} {done : List Call} (h : Replays ix done) (call : Call) :
    Replays (ix.after call) (if succeeds call.program ix then done ++ [call] else done) := by
  rcases h.consistent.after_cases call with ⟨hrefused, hsame⟩ | ⟨hdone, hconsistent, hframe⟩
  · rw [hrefused, hsame]
    exact h
  · rw [hdone, if_pos rfl]
    constructor
    · exact hconsistent
    · calc
        (ix.after call).get? = (call.target ix).get? := by
          funext id
          rw [← get?_withoutMemberships, hframe, get?_withoutMemberships]
        _ = call.applyTo ix.get? := h.consistent.get?_target call
        _ = replay (done ++ [call]) := by rw [h.get?, replay_concat]
    · calc
        (ix.after call).ids = (call.target ix).ids := by
          rw [← ids_withoutMemberships, hframe, ids_withoutMemberships]
        _ = _ := h.consistent.ids_target call
        _ = (touched (done ++ [call])).eraseDups := by rw [touched_concat, h.ids]

theorem Replays.run {ix : EntityIndex} {done : List Call} (h : Replays ix done)
    (calls : List Call) : Replays (ix.run calls) (done ++ ix.carriedOut calls) := by
  induction calls generalizing ix done with
  | nil =>
    rw [carriedOut, List.append_nil]
    exact h
  | cons call calls ih =>
    have hrun := ih (h.after call)
    rw [carriedOut]
    split at hrun
    next hdone => rwa [if_pos hdone, List.append_cons]
    next hrefused => rwa [if_neg hrefused]

theorem replays_run {grid : Grid} {start : EntityIndex} (hnew : new grid = .ok start)
    (calls : List Call) : Replays (start.run calls) (start.carriedOut calls) := by
  obtain ⟨rfl, hgrid⟩ := new_eq_ok hnew
  exact (replays_onGrid hgrid).run calls

/-- The entities follow from the calls alone. -/
theorem get?_run {grid : Grid} {start : EntityIndex} (hnew : new grid = .ok start)
    (calls : List Call) :
    (start.run calls).get? = replay (calls.filter (·.refusal?.isNone)) := by
  obtain ⟨rfl, hgrid⟩ := new_eq_ok hnew
  rw [(replays_run hnew calls).get?, (consistent_onGrid hgrid).carriedOut_eq]

/-- A call that is about another id, or about none, leaves an entity alone. -/
theorem Replays.get?_after_of_ne {ix : EntityIndex} {done : List Call} (h : Replays ix done)
    {call : Call} {id : Nat} (hother : call.id? ≠ some id) :
    (ix.after call).get? id = ix.get? id := by
  rw [(h.after call).get?, h.get?]
  split
  · rw [replay_concat, call.applyTo_of_ne hother]
  · rfl

/-- The index stands for the map on which the calls `done` were replayed. -/
structure StandsFor (ix : EntityIndex) (done : List Call) : Prop where
  /-- There are as many entities as ids that were touched. -/
  size : ix.size = (touched done).toFinset.card
  /-- The entities are listed in the order in which their ids were first touched. -/
  entities : ix.entities.map some = (touched done).eraseDups.map (replay done)
  get? : ∀ id, ix.get? id = replay done id
  others : ∀ (call : Call) (id : Nat), call.id? ≠ some id →
    (ix.after call).get? id = ix.get? id

theorem Replays.standsFor {ix : EntityIndex} {done : List Call} (h : Replays ix done) :
    StandsFor ix done where
  size := by
    have hids : ix.ids.toFinset = (touched done).toFinset := by
      ext id
      rw [h.ids, List.mem_toFinset, List.mem_toFinset, List.mem_eraseDups]
    calc
      ix.size = ix.ids.length := by simp [EntityIndex.size, EntityIndex.ids, EntityIndex.entities]
      _ = ix.ids.toFinset.card :=
        (List.toFinset_card_of_nodup h.consistent.represents.distinct).symm
      _ = (touched done).toFinset.card := by rw [hids]
  entities := by rw [h.consistent.map_some_entities, h.ids, h.get?]
  get? := congrFun h.get?
  others _ _ := h.get?_after_of_ne

/-- In every state that calls reach from an empty index, the entities are those that the calls
carried out so far give a plain map. -/
theorem run_standsFor {grid : Grid} {start : EntityIndex} (hnew : new grid = .ok start)
    (calls : List Call) : StandsFor (start.run calls) (start.carriedOut calls) :=
  (replays_run hnew calls).standsFor

/-- Two ids, one of them touched twice, and two calls that are refused. -/
theorem standsFor_two_ids :
    let square : Rect := .ofSize .zero .zero .one .one
    let ix := (onGrid .standard).run [.setBounds 7 square, .setTags 5 [300], .getOrAdd 9,
      .setTags 7 [3], .setBounds 9 ⟨.one, .zero, .zero, .one⟩]
    let done : List Call := [.setBounds 7 square, .getOrAdd 9, .setTags 7 [3]]
    new .standard = .ok (onGrid .standard) ∧ StandsFor ix done ∧
      ix.entities.map some =
        [some ⟨⟨7, square, .ofList [3]⟩, .plain⟩, some (.blank 9)] := by
  intro square ix done
  have hnew : new .standard = .ok (onGrid .standard) := rfl
  have hstands := run_standsFor hnew [.setBounds 7 square, .setTags 5 [300], .getOrAdd 9,
    .setTags 7 [3], .setBounds 9 ⟨.one, .zero, .zero, .one⟩]
  rw [(consistent_onGrid rfl).carriedOut_eq] at hstands
  have hdone : StandsFor ix done := hstands
  refine ⟨hnew, hdone, ?_⟩
  rw [hdone.entities]
  rfl

end EntityIndex
end SpriteField
