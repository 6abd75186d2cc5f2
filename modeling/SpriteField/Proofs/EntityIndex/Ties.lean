import SpriteField.Proofs.Binary32.Exact
import SpriteField.Proofs.EntityIndex.Painting

/-!
# Quads at equal depth

Quads are sorted by their depths as words, and those whose words tie stay in slot order.  Numbers
that are equal are equal as words as well, except that zero has two words.  So slot order decides
between equal depths unless the two zeros meet, in which case negative zero is drawn first.
-/

namespace SpriteField
namespace Binary32

theorem eq_ofMagnitude_zero {x : Binary32} {negative : Bool} (hmagnitude : x.magnitude = 0)
    (hnegative : x.negative = negative) : x = ofMagnitude negative 0 := by
  rw [← ofMagnitude_magnitude x, hmagnitude, hnegative]

/-- Among equal numbers the total order tells only the two zeros apart. -/
theorem totalKey_lt_iff_of_numericEq {x y : Binary32} (h : x.numericEq y = true) :
    x.totalKey < y.totalKey ↔ x = -.zero ∧ y = .zero := by
  constructor
  · intro hlt
    simp only [numericEq, Bool.and_eq_true, beq_iff_eq, key] at h
    simp only [totalKey] at hlt
    have hkey := h.2
    cases hx : x.negative <;> cases hy : y.negative <;>
      simp only [hx, hy, Bool.false_eq_true, if_true, if_false] at hkey hlt
    -- The keys agree, so the signs must differ, and both magnitudes vanish.
    case true.false =>
      exact ⟨eq_ofMagnitude_zero (by omega) hx, eq_ofMagnitude_zero (by omega) hy⟩
    all_goals omega
  · rintro ⟨rfl, rfl⟩
    decide

theorem numericEq_symm {x y : Binary32} (h : x.numericEq y = true) : y.numericEq x = true := by
  simp only [numericEq, Bool.and_eq_true, Bool.not_eq_true', beq_iff_eq] at *
  exact ⟨⟨h.1.2, h.1.1⟩, h.2.symm⟩

end Binary32

namespace EntityIndex

/-- Both lists of vertices have the quad of `first` before the quad of `second`. -/
def DrawsBefore (ix : EntityIndex) (first second : Nat) : Prop :=
  ∃ (order : List (Entity × Nat)) (a b : Entity), BackToFront ix order ∧
    [(a, first), (b, second)].Sublist order ∧
    ix.allVertices.1.toList = order.flatMap (·.1.quad.toList) ∧
    ∀ out : Array Vertex,
      (ix.appendVertices out).toList = out.toList ++ order.flatMap (·.1.quad.toList)

section Pairs

variable {ix : EntityIndex} {first second : Nat} {a b : Entity}

theorem BackToFront.sublist_iff {order : List (Entity × Nat)} (h : BackToFront ix order)
    (ha : (a, first) ∈ order) (hb : (b, second) ∈ order) :
    [(a, first), (b, second)].Sublist order ↔
      toLex (a.sprite.depth.totalKey, first) < toLex (b.sprite.depth.totalKey, second) := by
  constructor
  · exact List.pairwise_iff_forall_sublist.mp h.ascending
  · intro hlt
    have hpair : [(a, first), (b, second)].Pairwise fun a b =>
        toLex (a.1.sprite.depth.totalKey, a.2) < toLex (b.1.sprite.depth.totalKey, b.2) := by
      simpa using hlt
    have hnodup : [(a, first), (b, second)].Nodup := hpair.imp fun hlt heq =>
      absurd (heq ▸ hlt) (lt_irrefl _)
    have hsub : [(a, first), (b, second)] ⊆ order := by
      simp [ha, hb]
    have : Std.Antisymm fun a b : Entity × Nat =>
        toLex (a.1.sprite.depth.totalKey, a.2) < toLex (b.1.sprite.depth.totalKey, b.2) :=
      ⟨fun _ _ hab hba => absurd hba hab.asymm⟩
    exact List.sublist_of_subperm_of_pairwise (hnodup.subperm hsub) hpair h.ascending

theorem Painted.drawsBefore_iff (h : ix.Painted)
    (ha : ix.entities[first]? = some a) (hb : ix.entities[second]? = some b)
    (haArea : a.collider.bounds.hasArea = true) (hbArea : b.collider.bounds.hasArea = true) :
    ix.DrawsBefore first second ↔
      toLex (a.sprite.depth.totalKey, first) < toLex (b.sprite.depth.totalKey, second) := by
  constructor
  · rintro ⟨order, a', b', horder, hsub, -, -⟩
    have ha' := hsub.subset List.mem_cons_self
    have hb' := hsub.subset (List.mem_cons_of_mem _ List.mem_cons_self)
    cases ha.symm.trans ((horder.mem_iff a' first).mp ha').1
    cases hb.symm.trans ((horder.mem_iff b' second).mp hb').1
    exact (horder.sublist_iff ha' hb').mp hsub
  · intro hlt
    obtain ⟨order, horder, hall, happend⟩ := h.exists_backToFront
    have ha' := (horder.mem_iff a first).mpr ⟨ha, haArea⟩
    have hb' := (horder.mem_iff b second).mpr ⟨hb, hbArea⟩
    exact ⟨order, a, b, horder, (horder.sublist_iff ha' hb').mpr hlt, hall, happend⟩

/-- What the index holds after calls that change its entities, evaluated on the calls alone. -/
theorem entities_run {grid : Grid} {start : EntityIndex} (hnew : new grid = .ok start)
    (calls : List Call) {entities : List Entity}
    (h : (touched (calls.filter (·.refusal?.isNone))).eraseDups.map
      (replay (calls.filter (·.refusal?.isNone))) = entities.map some) :
    (start.run calls).entities = entities := by
  obtain ⟨rfl, hgrid⟩ := new_eq_ok hnew
  have hstands := run_standsFor hnew calls
  rw [(consistent_onGrid hgrid).carriedOut_eq] at hstands
  exact (Option.some_injective Entity).list_map (hstands.entities.trans h)

end Pairs

/-- In every state that calls reach from an empty index, entities of equal depth are drawn in slot
order, and only negative zero is drawn before an earlier slot, whose depth is then zero. -/
theorem run_drawsBefore_iff_of_tie {grid : Grid} {start : EntityIndex}
    (hnew : new grid = .ok start) (calls : List Call) {first second : Nat} {a b : Entity}
    (hlt : first < second) (ha : (start.run calls).entities[first]? = some a)
    (hb : (start.run calls).entities[second]? = some b)
    (haArea : a.collider.bounds.hasArea = true) (hbArea : b.collider.bounds.hasArea = true)
    (htie : a.sprite.depth.numericEq b.sprite.depth = true) :
    ((start.run calls).DrawsBefore first second ↔
        ¬(a.sprite.depth = .zero ∧ b.sprite.depth = -.zero)) ∧
      ((start.run calls).DrawsBefore second first ↔
        a.sprite.depth = .zero ∧ b.sprite.depth = -.zero) := by
  have hpainted := painted_run hnew calls
  have hab := Binary32.totalKey_lt_iff_of_numericEq htie
  have hba := Binary32.totalKey_lt_iff_of_numericEq (Binary32.numericEq_symm htie)
  rw [hpainted.drawsBefore_iff ha hb haArea hbArea, hpainted.drawsBefore_iff hb ha hbArea haArea,
    Prod.Lex.toLex_lt_toLex, Prod.Lex.toLex_lt_toLex, and_comm (a := a.sprite.depth = .zero), ← hba]
  constructor
  · omega
  · omega

/-- Two entities that are both at the depth of new ones. -/
theorem drawsBefore_of_two_plain :
    let left : Rect := .ofSize .zero .zero .one .one
    let right : Rect := .ofSize .one .zero .one .one
    let ix := (onGrid .standard).run [.setBounds 7 left, .setBounds 9 right]
    new .standard = .ok (onGrid .standard) ∧ ix.DrawsBefore 0 1 ∧ ¬ix.DrawsBefore 1 0 := by
  intro left right ix
  have hnew : new .standard = .ok (onGrid .standard) := rfl
  have hentities : ix.entities =
      [⟨⟨7, left, .empty⟩, .plain⟩, ⟨⟨9, right, .empty⟩, .plain⟩] :=
    entities_run hnew _ rfl
  have hdrawn := run_drawsBefore_iff_of_tie hnew [.setBounds 7 left, .setBounds 9 right]
    (by decide) (congrArg (·[0]?) hentities)
    (congrArg (·[1]?) hentities) (by decide) (by decide) (by decide)
  exact ⟨hnew, hdrawn.1.mpr (by decide), fun h => absurd (hdrawn.2.mp h) (by decide)⟩

/-- The depths are equal, and yet the later slot is drawn first. -/
theorem drawsBefore_of_negative_zero :
    let left : Entity := ⟨⟨7, .ofSize .zero .zero .one .one, .empty⟩, .plain⟩
    let right : Entity :=
      ⟨⟨9, .ofSize .one .zero .one .one, .empty⟩, { Sprite.plain with depth := -.zero }⟩
    let ix := (onGrid .standard).run [.set left, .set right]
    new .standard = .ok (onGrid .standard) ∧ ix.entities = [left, right] ∧
      left.collider.bounds.hasArea = true ∧ right.collider.bounds.hasArea = true ∧
      left.sprite.depth.numericEq right.sprite.depth = true ∧
      ¬ix.DrawsBefore 0 1 ∧ ix.DrawsBefore 1 0 := by
  intro left right ix
  have hnew : new .standard = .ok (onGrid .standard) := rfl
  have hentities : ix.entities = [left, right] := entities_run hnew _ (by decide +kernel)
  have hpainted : ix.Painted := painted_run hnew _
  have hleft : ix.entities[0]? = some left := congrArg (·[0]?) hentities
  have hright : ix.entities[1]? = some right := congrArg (·[1]?) hentities
  refine ⟨hnew, hentities, by decide, by decide, by decide, ?_, ?_⟩
  · rw [hpainted.drawsBefore_iff hleft hright (by decide) (by decide)]
    decide
  · rw [hpainted.drawsBefore_iff hright hleft (by decide) (by decide)]
    decide

end EntityIndex
end SpriteField
