import SpriteField.Proofs.Binary32.Exact
import SpriteField.Proofs.EntityIndex.Replay

/-!
# What the index draws

Two things are kept for drawing: the quad of each slot, and the list of all vertices.  The first is
made anew by every change of what it depends on, the second only when somebody asks for it after a
change.  Neither is ever seen out of date, so what is drawn follows from the entities alone.
-/

namespace SpriteField

namespace Binary32

/-- The total order of all words: the negative ones come first, by descending magnitude, and then
the others, by ascending magnitude. -/
def Precedes (x y : Binary32) : Prop :=
  match x.negative, y.negative with
  | true, true => y.magnitude < x.magnitude
  | true, false => True
  | false, true => False
  | false, false => x.magnitude < y.magnitude

theorem totalKey_lt_iff {x y : Binary32} : x.totalKey < y.totalKey ↔ x.Precedes y := by
  unfold totalKey Precedes
  cases x.negative <;> cases y.negative <;>
    simp only [Bool.false_eq_true, if_true, if_false, iff_true, iff_false] <;> omega

theorem totalKey_inj {x y : Binary32} : x.totalKey = y.totalKey ↔ x = y := by
  constructor
  · intro h
    have hparts : x.negative = y.negative ∧ x.magnitude = y.magnitude := by
      simp only [totalKey] at h
      cases hx : x.negative <;> cases hy : y.negative <;>
        simp only [hx, hy, Bool.false_eq_true, if_true, if_false] at h
      case false.false | true.true => exact ⟨rfl, by omega⟩
      all_goals omega
    rw [← ofMagnitude_magnitude x, hparts.1, hparts.2, ofMagnitude_magnitude]
  · rintro rfl
    rfl

end Binary32

theorem pairwise_zipIdx {α : Type} (xs : List α) : xs.zipIdx.Pairwise fun a b => a.2 < b.2 := by
  rw [← List.pairwise_map, List.zipIdx_map_snd]
  exact List.pairwise_lt_range'

/-- The sort puts entries in order, and those that tie in the order that they had. -/
theorem pairwise_mergeSort_stable {α : Type} {le : α → α → Bool} {before : α → α → Prop}
    (htrans : ∀ a b c, le a b = true → le b c = true → le a c = true)
    (htotal : ∀ a b, (le a b || le b a) = true) {xs : List α} (hxs : xs.Pairwise before) :
    (xs.mergeSort le).Pairwise fun a b => le a b = true ∧ (le b a = true → before a b) := by
  -- Numbered by their old places, no two entries tie.
  rw [← List.mergeSort_zipIdx, List.pairwise_map]
  have hperm := List.mergeSort_perm xs.zipIdx (List.zipIdxLE le)
  have hsorted := List.pairwise_mergeSort (List.zipIdxLE_trans htrans)
    (List.zipIdxLE_total htotal) xs.zipIdx
  have hplaces : (xs.zipIdx.mergeSort (List.zipIdxLE le)).Pairwise fun a b => a.2 ≠ b.2 :=
    (hperm.pairwise_iff Ne.symm).mpr ((pairwise_zipIdx xs).imp Nat.ne_of_lt)
  refine (hsorted.and hplaces).imp_of_mem ?_
  rintro a b ha hb ⟨hle, hne⟩
  rw [List.zipIdxLE] at hle
  split at hle
  next hab =>
    refine ⟨hab, fun hba => ?_⟩
    rw [if_pos hba, decide_eq_true_eq] at hle
    have hat := List.mem_zipIdx_iff_getElem?.mp (hperm.mem_iff.mp ha)
    have hbt := List.mem_zipIdx_iff_getElem?.mp (hperm.mem_iff.mp hb)
    obtain ⟨halt, ha'⟩ := List.getElem?_eq_some_iff.mp hat
    obtain ⟨hblt, hb'⟩ := List.getElem?_eq_some_iff.mp hbt
    rw [← ha', ← hb']
    exact List.pairwise_iff_getElem.mp hxs a.2 b.2 halt hblt (Nat.lt_of_le_of_ne hle hne)
  next => cases hle

/-! ## The picture of a list of entities -/

def Entity.isDrawable (entity : Entity) : Bool :=
  entity.collider.bounds.hasArea

def depthLE (a b : Entity) : Bool :=
  a.sprite.depth.totalKey ≤ b.sprite.depth.totalKey

/-- The entities that are drawn, from back to front, each with its place in the list. -/
def paintOrder (entities : List Entity) : List (Entity × Nat) :=
  (entities.zipIdx.filter (·.1.isDrawable)).mergeSort fun a b => depthLE a.1 b.1

def picture (entities : List Entity) : List Vertex :=
  (paintOrder entities).flatMap (·.1.quad.toList)

theorem mem_paintOrder {entities : List Entity} {entity : Entity} {place : Nat} :
    (entity, place) ∈ paintOrder entities ↔
      entities[place]? = some entity ∧ entity.isDrawable = true := by
  rw [paintOrder, (List.mergeSort_perm _ _).mem_iff, List.mem_filter,
    List.mem_zipIdx_iff_getElem?]

/-- Ascending depth, and at equal depth the order of the list. -/
theorem pairwise_paintOrder (entities : List Entity) :
    (paintOrder entities).Pairwise fun a b =>
      toLex (a.1.sprite.depth.totalKey, a.2) < toLex (b.1.sprite.depth.totalKey, b.2) := by
  have hplaces : (entities.zipIdx.filter (·.1.isDrawable)).Pairwise fun a b => a.2 < b.2 :=
    (pairwise_zipIdx entities).filter _
  refine (pairwise_mergeSort_stable ?_ ?_ hplaces).imp ?_
  · intro a b c hab hbc
    simp only [depthLE, decide_eq_true_eq] at *
    exact hab.trans hbc
  · intro a b
    simp only [depthLE, Bool.or_eq_true, decide_eq_true_eq]
    exact le_total _ _
  · rintro a b ⟨hle, htie⟩
    simp only [depthLE, decide_eq_true_eq] at hle htie
    rw [Prod.Lex.toLex_lt_toLex]
    rcases lt_or_eq_of_le hle with hlt | heq
    · exact Or.inl hlt
    · exact Or.inr ⟨heq, htie heq.ge⟩

theorem paintOrder_map_fst (entities : List Entity) :
    (paintOrder entities).map (·.1) = (entities.filter (·.isDrawable)).mergeSort depthLE := by
  have hfilter : (entities.zipIdx.filter (·.1.isDrawable)).map (·.1) =
      entities.filter (·.isDrawable) := by
    have hfst := List.filter_map (f := Prod.fst) (p := Entity.isDrawable) (l := entities.zipIdx)
    rw [List.zipIdx_map_fst] at hfst
    exact hfst.symm
  rw [paintOrder, List.map_mergeSort, hfilter]
  intro a _ b _
  rfl

theorem picture_eq (entities : List Entity) :
    picture entities =
      ((entities.filter (·.isDrawable)).mergeSort depthLE).flatMap (·.quad.toList) := by
  rw [← paintOrder_map_fst, List.flatMap_map]
  rfl

/-- An entity that is not drawn does not change the picture. -/
theorem picture_concat {entity : Entity} (h : entity.isDrawable = false) (entities : List Entity) :
    picture (entities ++ [entity]) = picture entities := by
  rw [picture_eq, picture_eq, List.filter_append]
  simp [h]

namespace EntityIndex

/-! ## The index draws its entities -/

/-- Whatever is drawn from a slot is what its entity looks like now. -/
def Fresh (ix : EntityIndex) : Prop :=
  ∀ (slot : Nat) (s : Slot), ix.slots[slot]? = some s → s.isDrawable = true →
    s.quad = s.entity.quad

theorem toList_foldl_append (slots : List Slot) (out : Array Vertex) :
    (slots.foldl (fun out s => out ++ s.quad.toArray) out).toList =
      out.toList ++ slots.flatMap (·.quad.toList) := by
  induction slots generalizing out with
  | nil => simp
  | cons s slots ih =>
    rw [List.foldl_cons, ih, Array.toList_append, List.flatMap_cons, List.append_assoc]
    rfl

theorem drawOrder_map_entity (ix : EntityIndex) :
    ix.drawOrder.map (·.entity) = (ix.entities.filter (·.isDrawable)).mergeSort depthLE := by
  rw [drawOrder, List.map_mergeSort (s := depthLE), entities, List.filter_map]
  · rfl
  · intro a _ b _
    rfl

theorem Fresh.toList_appendVertices {ix : EntityIndex} (h : ix.Fresh) (out : Array Vertex) :
    (ix.appendVertices out).toList = out.toList ++ picture ix.entities := by
  have hquads : ix.drawOrder.flatMap (·.quad.toList) =
      ix.drawOrder.flatMap (·.entity.quad.toList) := by
    apply List.flatMap_congr
    intro s hs
    rw [drawOrder, List.mem_mergeSort, List.mem_filter, List.mem_iff_getElem?] at hs
    obtain ⟨⟨slot, hslot⟩, hdrawable⟩ := hs
    rw [Array.getElem?_toList] at hslot
    rw [h slot s hslot hdrawable]
  rw [appendVertices, toList_foldl_append, hquads, picture_eq, ← drawOrder_map_entity,
    List.flatMap_map]

/-! ## Fresh through every call -/

/-- Everything that is kept for drawing is up to date, unless it is marked as stale. -/
structure Painted (ix : EntityIndex) : Prop where
  fresh : ix.Fresh
  drawn : ix.stale = false → ix.drawn.toList = picture ix.entities

theorem painted_onGrid (grid : Grid) : Painted (onGrid grid) where
  fresh slot s hs := by simp [onGrid] at hs
  drawn _ := by simp [onGrid, entities, picture_eq]

/-- Memberships do not matter to what is drawn. -/
theorem Painted.congr {ix ix' : EntityIndex} (h : ix.Painted)
    (hframe : ix'.withoutMemberships = ix.withoutMemberships) : ix'.Painted where
  fresh := by
    intro slot s hs hdrawable
    obtain ⟨old, hold, hentity, hquad⟩ : ∃ old, ix.slots[slot]? = some old ∧
        s.entity = old.entity ∧ s.quad = old.quad := by
      have hslot : ix'.withoutMemberships.slots[slot]? = ix.withoutMemberships.slots[slot]? := by
        rw [hframe]
      rw [getElem?_withoutMemberships, getElem?_withoutMemberships, hs] at hslot
      obtain ⟨old, hold, heq⟩ := Option.map_eq_some_iff.mp hslot.symm
      obtain ⟨hentity, -, -, hquad⟩ := Slot.mk.inj heq
      exact ⟨old, hold, hentity.symm, hquad.symm⟩
    rw [Slot.isDrawable, hentity] at hdrawable
    rw [hentity, hquad]
    exact h.fresh slot old hold hdrawable
  drawn := by
    have hentities : ix'.entities = ix.entities := by
      rw [← entities_withoutMemberships ix', hframe, entities_withoutMemberships]
    obtain ⟨-, -, -, -, -, hdrawn, hstale, -⟩ := EntityIndex.mk.inj hframe
    rw [hentities]
    change ix'.drawn = ix.drawn at hdrawn
    change ix'.stale = ix.stale at hstale
    rw [hdrawn, hstale]
    exact h.drawn

/-- A new slot is blank, so it adds nothing to the picture. -/
theorem Painted.known {ix : EntityIndex} (h : ix.Painted) (id : Nat) : (ix.known id).Painted := by
  unfold EntityIndex.known
  split
  · exact h
  · constructor
    · intro slot s hs hdrawable
      rcases slot_withBlank hs with ⟨-, rfl⟩ | hs
      · exact absurd (Rect.hasArea_zero.symm.trans hdrawable) Bool.false_ne_true
      · exact h.fresh slot s hs hdrawable
    · have hentities : (ix.withBlank id).entities = ix.entities ++ [.blank id] := by
        simp [entities, withBlank, Slot.blank]
      rw [hentities, picture_concat (by rfl)]
      exact h.drawn

theorem Painted.edit {ix : EntityIndex} (h : ix.Painted) (id : Nat) (change : Entity → Entity) :
    (ix.edit id change).Painted where
  fresh := by
    intro slot s hs hdrawable
    rw [getElem?_edit] at hs
    split at hs
    · obtain ⟨old, -, rfl⟩ := Option.map_eq_some_iff.mp hs
      rfl
    · exact (h.known id).fresh slot s hs hdrawable
  drawn hstale := by cases hstale

theorem Painted.redraw {ix : EntityIndex} (h : ix.Painted) : ix.redraw.Painted := by
  unfold EntityIndex.redraw
  split
  · constructor
    · exact h.fresh
    · intro _
      exact h.fresh.toList_appendVertices #[]
  · exact h

theorem Painted.target {ix : EntityIndex} (h : ix.Painted) (call : Call) :
    (call.target ix).Painted := by
  cases call with
  | set | setCollider | setSprite | setBounds | setTagSet | setTags =>
    dsimp only [Call.target, Call.edit?]
    exact h.edit _ _
  | getOrAdd id => exact h.known id
  | allVertices => exact h.redraw
  | searchAll | search | resetCounters => exact h

theorem Painted.after {ix : EntityIndex} (h : ix.Painted) (hconsistent : ix.Consistent)
    (call : Call) : (ix.after call).Painted := by
  rcases hconsistent.after_cases call with ⟨-, hsame⟩ | ⟨-, -, hframe⟩
  · rw [hsame]
    exact h
  · exact (h.target call).congr hframe

theorem Painted.run {ix : EntityIndex} (h : ix.Painted) (hconsistent : ix.Consistent)
    (calls : List Call) : (ix.run calls).Painted := by
  unfold EntityIndex.run
  induction calls generalizing ix with
  | nil => exact h
  | cons call calls ih => exact ih (h.after hconsistent call) (hconsistent.after call).1

theorem painted_run {grid : Grid} {start : EntityIndex} (hnew : new grid = .ok start)
    (calls : List Call) : (start.run calls).Painted := by
  obtain ⟨rfl, hgrid⟩ := new_eq_ok hnew
  exact (painted_onGrid grid).run (consistent_onGrid hgrid) calls

/-! ## What a user sees -/

theorem Fresh.quad?_eq_some_iff {ix : EntityIndex} (h : ix.Fresh) {id : Nat} {quad : Quad} :
    ix.quad? id = some quad ↔ ∃ entity, ix.get? id = some entity ∧
      entity.collider.bounds.hasArea = true ∧ quad = entity.quad := by
  have hquad? : ix.quad? id =
      (ix.slot? id).bind fun s => if s.isDrawable then some s.quad else none := rfl
  rw [hquad?, get?]
  cases hslot : ix.slot? id with
  | none => simp
  | some s =>
    obtain ⟨slot, -, hs⟩ := Option.bind_eq_some_iff.mp hslot
    have hfresh := h slot s hs
    simp only [Option.bind_some, Option.map_some, Option.some.injEq, exists_eq_left']
    rw [← Slot.isDrawable]
    split
    next hdrawable => simp [hdrawable, hfresh hdrawable, eq_comm]
    next hblank => simp [hblank]

theorem Painted.toList_allVertices {ix : EntityIndex} (h : ix.Painted) :
    ix.allVertices.1.toList = picture ix.entities := by
  change ix.redraw.drawn.toList = _
  unfold EntityIndex.redraw
  split
  next => exact h.fresh.toList_appendVertices #[]
  next hstale => exact h.drawn (Bool.eq_false_iff.mpr hstale)

/-- All entities with area and their slots, from back to front.  There is only one such list. -/
structure BackToFront (ix : EntityIndex) (order : List (Entity × Nat)) : Prop where
  mem_iff : ∀ (entity : Entity) (slot : Nat), (entity, slot) ∈ order ↔
    ix.entities[slot]? = some entity ∧ entity.collider.bounds.hasArea = true
  /-- By the total order of depths, and by slot at equal depth. -/
  ascending : order.Pairwise fun a b =>
    toLex (a.1.sprite.depth.totalKey, a.2) < toLex (b.1.sprite.depth.totalKey, b.2)

/-- The index draws its entities from back to front, quad by quad. -/
theorem Painted.exists_backToFront {ix : EntityIndex} (h : ix.Painted) :
    ∃ order, BackToFront ix order ∧
      ix.allVertices.1.toList = order.flatMap (·.1.quad.toList) ∧
      ∀ out : Array Vertex,
        (ix.appendVertices out).toList = out.toList ++ order.flatMap (·.1.quad.toList) :=
  ⟨paintOrder ix.entities, ⟨fun _ _ => mem_paintOrder, pairwise_paintOrder ix.entities⟩,
    h.toList_allVertices, h.fresh.toList_appendVertices⟩

/-- Of two entities with their slots, `a` lies further back than `b`: its depth comes first, or both
have one depth and its slot comes first. -/
def Behind (a b : Entity × Nat) : Prop :=
  a.1.sprite.depth.Precedes b.1.sprite.depth ∨ a.1.sprite.depth = b.1.sprite.depth ∧ a.2 < b.2

theorem BackToFront.behind {ix : EntityIndex} {order : List (Entity × Nat)}
    (h : BackToFront ix order) : order.Pairwise Behind := by
  refine h.ascending.imp ?_
  intro a b hlt
  rwa [Prod.Lex.toLex_lt_toLex, Binary32.totalKey_lt_iff, Binary32.totalKey_inj] at hlt

/-- Nothing that the index draws is out of date. -/
structure DrawsCurrent (ix : EntityIndex) : Prop where
  quad? : ∀ (id : Nat) (quad : Quad), ix.quad? id = some quad ↔
    ∃ entity, ix.get? id = some entity ∧ entity.collider.bounds.hasArea = true ∧
      quad.toList = entity.appearance
  vertices : ∃ order, BackToFront ix order ∧ order.Pairwise Behind ∧
    ix.allVertices.1.toList = order.flatMap (·.1.appearance) ∧
    ∀ out : Array Vertex,
      (ix.appendVertices out).toList = out.toList ++ order.flatMap (·.1.appearance)

theorem Painted.drawsCurrent {ix : EntityIndex} (h : ix.Painted) : DrawsCurrent ix := by
  constructor
  · intro id quad
    simp only [h.fresh.quad?_eq_some_iff, ← Vector.toList_inj, Entity.toList_quad]
  · obtain ⟨order, horder, hall, happend⟩ := h.exists_backToFront
    simp only [Entity.toList_quad] at hall happend
    exact ⟨order, horder, horder.behind, hall, happend⟩

/-- In every state that calls reach from an empty index, refused calls and earlier drawings
included, the index draws its entities as they are. -/
theorem run_drawsCurrent {grid : Grid} {start : EntityIndex} (hnew : new grid = .ok start)
    (calls : List Call) : DrawsCurrent (start.run calls) :=
  (painted_run hnew calls).drawsCurrent

/-- An entity that moves after it was drawn, and an id that is only looked up.  The transform makes
the entity twice as wide and then moves it by ten to the right and by two up. -/
theorem drawsCurrent_after_move :
    let square : Rect := .ofSize .zero .zero .one .one
    let moved : Rect := .ofSize .one .zero .one .one
    let texture : Rect := ⟨.ofNat 8, .ofNat 16, .ofNat 12, .ofNat 20⟩
    let widen : Transform := ⟨⟨.ofNat 2, .zero, .zero, .zero⟩, ⟨.zero, .one, .zero, .zero⟩,
      ⟨.zero, .zero, .one, .zero⟩, ⟨.ofNat 10, -.ofNat 2, .zero, .one⟩⟩
    let vertex (x y u v : Binary32) : Vertex := ⟨⟨x, y, .ofNat 3, .one⟩, .pureRed, u, v⟩
    let ix := (onGrid .standard).run [.setBounds 7 square,
      .setSprite 7 ⟨texture, .pureRed, .ofNat 3, widen⟩, .allVertices, .getOrAdd 9,
      .setBounds 7 moved]
    new .standard = .ok (onGrid .standard) ∧ DrawsCurrent ix ∧
      ix.quad? 7 = some #v[vertex (.ofNat 12) (-.ofNat 2) (.ofNat 8) (.ofNat 16),
        vertex (.ofNat 14) (-.ofNat 2) (.ofNat 12) (.ofNat 16),
        vertex (.ofNat 12) (-.one) (.ofNat 8) (.ofNat 20),
        vertex (.ofNat 14) (-.ofNat 2) (.ofNat 12) (.ofNat 16),
        vertex (.ofNat 14) (-.one) (.ofNat 12) (.ofNat 20),
        vertex (.ofNat 12) (-.one) (.ofNat 8) (.ofNat 20)] := by
  intro square moved texture widen vertex ix
  have hnew : new .standard = .ok (onGrid .standard) := rfl
  have hdraws : DrawsCurrent ix := run_drawsCurrent hnew _
  have hget : ix.get? 7 =
      some ⟨⟨7, moved, .empty⟩, ⟨texture, .pureRed, .ofNat 3, widen⟩⟩ := by
    rw [get?_run hnew]
    decide +kernel
  exact ⟨hnew, hdraws, (hdraws.quad? 7 _).mpr ⟨_, hget, by decide, by decide +kernel⟩⟩

end EntityIndex
end SpriteField
