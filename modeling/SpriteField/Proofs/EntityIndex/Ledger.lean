import SpriteField.Proofs.EntityIndex.Counting

/-!
# The books of the index

A ledger adds up, without bounds, what each call of a run should count.  The counters hold these
sums as words.  Whatever was joined has been left again or is still held, and what a slot holds
follows from its entity, so the balance is kept by every call.
-/

namespace SpriteField

/-- What calls come to: updates, buckets joined and left by them, searches, candidates visited and
found. -/
structure Ledger where
  updates : Nat := 0
  joined : Nat := 0
  removed : Nat := 0
  searches : Nat := 0
  visited : Nat := 0
  found : Nat := 0

namespace Ledger

/-- An update that replaces a collider in `before` buckets by one in `after` buckets. -/
def ofUpdate (before after : Nat) : Ledger :=
  { updates := 1, joined := after, removed := before }

def ofSearch (visited found : Nat) : Ledger :=
  { searches := 1, visited, found }

/-- No counter has to count further than it can. -/
def Fits (l : Ledger) : Prop :=
  l.updates < 2 ^ 64 ∧ l.removed < 2 ^ 64 ∧ l.searches < 2 ^ 64 ∧ l.visited < 2 ^ 64

instance (l : Ledger) : Decidable l.Fits :=
  inferInstanceAs (Decidable (_ ∧ _))

def plus (l l' : Ledger) : Ledger where
  updates := l.updates + l'.updates
  joined := l.joined + l'.joined
  removed := l.removed + l'.removed
  searches := l.searches + l'.searches
  visited := l.visited + l'.visited
  found := l.found + l'.found

theorem plus_assoc (l l' l'' : Ledger) : (l.plus l').plus l'' = l.plus (l'.plus l'') := by
  simp [plus, Nat.add_assoc]

theorem empty_plus (l : Ledger) : plus {} l = l := by
  simp [plus]

end Ledger

/-- The counters have counted what the ledger says. -/
structure Tallied (c : IndexCounters) (l : Ledger) : Prop where
  updates : c.colliderUpdates = .upTo l.updates
  removals : c.membershipRemovals = .upTo l.removed
  fixups : ∃ n ≤ l.removed, c.backReferenceFixups = .upTo n
  searches : c.searches = .upTo l.searches
  tagDriven : ∃ n ≤ l.searches, c.tagDrivenSearches = .upTo n
  visited : c.candidatesVisited = .upTo l.visited
  found : c.matchesReturned = .upTo l.found
  found_le : l.found ≤ l.visited

namespace Tallied

variable {c c' : IndexCounters} {l : Ledger}

theorem empty : Tallied default {} :=
  ⟨rfl, rfl, ⟨0, le_rfl, rfl⟩, rfl, ⟨0, le_rfl, rfl⟩, rfl, rfl, le_rfl⟩

theorem update (h : Tallied c l) {removed : Nat} (joined : Nat) (hleaves : c.Leaves removed c') :
    Tallied { c' with colliderUpdates := c.colliderUpdates.increment 1 }
      (l.plus (.ofUpdate removed joined)) := by
  obtain ⟨fixups, hle, rfl⟩ := hleaves
  obtain ⟨earlier, hearlier, hfixups⟩ := h.fixups
  constructor
  · rw [h.updates]
    exact Counter.increment_upTo _ 1
  · change c.membershipRemovals.increment _ = _
    rw [h.removals]
    exact Counter.increment_upTo _ removed
  · refine ⟨earlier + fixups, Nat.add_le_add hearlier hle, ?_⟩
    change c.backReferenceFixups.increment _ = _
    rw [hfixups, Counter.increment_upTo]
  · exact h.searches
  · exact h.tagDriven
  · exact h.visited
  · exact h.found
  · exact h.found_le

theorem search (h : Tallied c l) {led visited found : Nat} (hled : led ≤ 1)
    (hfound : found ≤ visited) :
    Tallied (c.searched led visited found) (l.plus (.ofSearch visited found)) := by
  obtain ⟨earlier, hearlier, htagDriven⟩ := h.tagDriven
  constructor
  · exact h.updates
  · exact h.removals
  · exact h.fixups
  · change c.searches.increment 1 = _
    rw [h.searches]
    exact Counter.increment_upTo _ 1
  · refine ⟨earlier + led, Nat.add_le_add hearlier hled, ?_⟩
    change c.tagDrivenSearches.increment _ = _
    rw [htagDriven, Counter.increment_upTo]
  · change c.candidatesVisited.increment _ = _
    rw [h.visited]
    exact Counter.increment_upTo _ visited
  · change c.matchesReturned.increment _ = _
    rw [h.found]
    exact Counter.increment_upTo _ found
  · exact Nat.add_le_add h.found_le hfound

end Tallied

namespace EntityIndex

variable {ix : EntityIndex} {call : Call} {l : Ledger}

/-- What a call should count: an update and a search that are carried out do, and nothing else. -/
def entry (ix : EntityIndex) : Call → Ledger
  | .searchAll query => .ofSearch (ix.visits query none) (ix.searchAll query).1.size
  | .search query buffer =>
    if buffer.isEmpty then {}
    else .ofSearch (ix.visits query (some buffer.size)) (ix.search query buffer).1.1
  | call =>
    match call.collider? ix with
    | some collider =>
      if succeeds call.program ix then
        .ofUpdate ((ix.colliderOf collider.id).memberships ix.grid)
          (collider.memberships ix.grid)
      else {}
    | none => {}

/-- What the calls of a run should count. -/
def ledger (ix : EntityIndex) : List Call → Ledger
  | [] => {}
  | call :: calls => (ix.entry call).plus ((ix.after call).ledger calls)

/-! ## Memberships held -/

/-- Number of memberships that the slots hold. -/
def held (ix : EntityIndex) : Nat :=
  ix.chunkRefCount + ix.tagRefCount

/-- Every entity is in the buckets of its collider. -/
theorem Consistent.held_eq (h : ix.Consistent) :
    ix.held = (ix.entities.map (·.collider.memberships ix.grid)).sum := by
  rw [held, chunkRefCount, tagRefCount, ← List.sum_eq_foldl, ← List.sum_eq_foldl,
    ← List.sum_map_add, entities, List.map_map]
  congr 1
  apply List.map_congr_left
  intro s hs
  obtain ⟨slot, hslot⟩ := List.mem_iff_getElem?.mp hs
  rw [Array.getElem?_toList] at hslot
  have hlength := h.length_refs hslot
  rwa [chunkRefList_eq hslot, tagRefList_eq hslot] at hlength

/-- A sum over a list in which one element has been replaced. -/
theorem sum_map_set (f : α → Nat) {xs : List α} {i : Nat} {x : α} (hx : xs[i]? = some x) (y : α) :
    ((xs.set i y).map f).sum + f x = (xs.map f).sum + f y := by
  induction xs generalizing i with
  | nil => simp at hx
  | cons head rest ih =>
    cases i with
    | zero =>
      cases hx
      simp only [List.set_cons_zero, List.map_cons, List.sum_cons]
      omega
    | succ i =>
      have hrest := ih hx
      simp only [List.set_cons_succ, List.map_cons, List.sum_cons]
      omega

theorem sum_known (ix : EntityIndex) (id : Nat) {f : Entity → Nat} (hblank : f (.blank id) = 0) :
    ((ix.known id).entities.map f).sum = (ix.entities.map f).sum := by
  unfold known
  split
  · rfl
  · simp [withBlank, entities, Slot.blank, hblank]

theorem Consistent.sum_edit (h : ix.Consistent) (id : Nat) (change : Entity → Entity)
    {f : Entity → Nat} (hblank : f (.blank id) = 0) :
    ((ix.edit id change).entities.map f).sum + f ((ix.get? id).getD (.blank id)) =
      (ix.entities.map f).sum + f (change ((ix.get? id).getD (.blank id))) := by
  obtain ⟨s, hs, -, hentity⟩ := h.getElem?_known id
  have hget : (ix.known id).entities[ix.slotNumber id]? = some s.entity := by
    rw [entities, List.getElem?_map, Array.getElem?_toList, hs]
    rfl
  have hedit : (ix.edit id change).entities =
      (ix.known id).entities.set (ix.slotNumber id) (change s.entity) := by
    apply List.ext_getElem?
    intro i
    rw [entities, List.getElem?_map, Array.getElem?_toList, getElem?_edit, List.getElem?_set]
    split
    next heq =>
      subst heq
      rw [if_pos (List.getElem?_eq_some_iff.mp hget).1, hs]
      rfl
    next => rw [entities, List.getElem?_map, Array.getElem?_toList]
  rw [hedit, ← hentity, sum_map_set f hget, sum_known ix id hblank]

theorem Consistent.entities_after (h : ix.Consistent) (hrefusal : call.refusal? = none) :
    (ix.after call).entities = (call.target ix).entities := by
  obtain ⟨ix', hdone, -, hframe⟩ := h.performs hrefusal
  rw [after_eq_stateAfter, stateAfter_of_ok hdone, ← entities_withoutMemberships, hframe,
    entities_withoutMemberships]

theorem collider_getD_get? (ix : EntityIndex) (id : Nat) :
    ((ix.get? id).getD (.blank id)).collider = ix.colliderOf id := by
  rw [colliderOf]
  cases ix.get? id <;> rfl

theorem Consistent.target_of_collider? (h : ix.Consistent) {collider : Collider}
    (hcollider : call.collider? ix = some collider) :
    ∃ id change, collider.id = id ∧ call.target ix = ix.edit id change ∧
      (change ((ix.get? id).getD (.blank id))).collider = collider := by
  cases call with
  | set entity =>
    cases hcollider
    exact ⟨entity.id, fun _ => entity, rfl, rfl, rfl⟩
  | setCollider collider =>
    cases hcollider
    exact ⟨_, fun old => { old with collider }, rfl, rfl, rfl⟩
  | setBounds id bounds =>
    cases hcollider
    refine ⟨id, fun old => { old with collider := { old.collider with bounds } },
      h.id_colliderOf id, rfl, ?_⟩
    dsimp only
    rw [collider_getD_get?]
  | setTagSet id tags =>
    cases hcollider
    refine ⟨id, fun old => { old with collider := { old.collider with tags } },
      h.id_colliderOf id, rfl, ?_⟩
    dsimp only
    rw [collider_getD_get?]
  | setTags id tags =>
    cases hcollider
    refine ⟨id, fun old => { old with collider := { old.collider with tags := .ofList tags } },
      h.id_colliderOf id, rfl, ?_⟩
    dsimp only
    rw [collider_getD_get?]
  | setSprite | getOrAdd | searchAll | search | allVertices | resetCounters => cases hcollider

theorem Consistent.sum_target_of_none (h : ix.Consistent) {f : Collider → Nat}
    (hblank : ∀ id, f (.blank id) = 0) (hcollider : call.collider? ix = none) :
    ((call.target ix).entities.map fun entity => f entity.collider).sum =
      (ix.entities.map fun entity => f entity.collider).sum := by
  cases call with
  | setSprite id sprite =>
    have hedit := h.sum_edit id (fun old => { old with sprite })
      (f := fun entity => f entity.collider) (hblank id)
    exact Nat.add_right_cancel hedit
  | getOrAdd id => exact sum_known ix id (hblank id)
  | allVertices =>
    obtain ⟨drawn, stale, hredraw⟩ := exists_redraw_eq ix
    change (ix.redraw.entities.map _).sum = _
    rw [hredraw]
    rfl
  | searchAll | search | resetCounters => rfl
  | set | setCollider | setBounds | setTagSet | setTags => cases hcollider

/-- A new collider moves its entity from the buckets of the old one to its own. -/
theorem Consistent.held_after_of_some (h : ix.Consistent) (hrefusal : call.refusal? = none)
    {collider : Collider} (hcollider : call.collider? ix = some collider) :
    (ix.after call).held + (ix.colliderOf collider.id).memberships ix.grid =
      ix.held + collider.memberships ix.grid := by
  obtain ⟨hafter, hgrid⟩ := h.after call
  obtain ⟨id, change, rfl, htarget, hchange⟩ := h.target_of_collider? hcollider
  have hedit := h.sum_edit collider.id change
    (f := fun entity => entity.collider.memberships ix.grid)
    (Collider.memberships_blank _ _)
  rw [hchange, collider_getD_get?, ← htarget, ← h.entities_after hrefusal, ← h.held_eq] at hedit
  rwa [hafter.held_eq, hgrid]

theorem Consistent.held_after_of_none (h : ix.Consistent) (hrefusal : call.refusal? = none)
    (hcollider : call.collider? ix = none) : (ix.after call).held = ix.held := by
  obtain ⟨hafter, hgrid⟩ := h.after call
  rw [hafter.held_eq, hgrid, h.entities_after hrefusal, h.held_eq]
  exact h.sum_target_of_none (f := fun collider => collider.memberships ix.grid)
    (fun id => Collider.memberships_blank id ix.grid) hcollider

/-! ## One call -/

theorem Consistent.entry_of_refused (h : ix.Consistent) {error : EngineError}
    (hrefusal : call.refusal? = some error) : ix.entry call = {} := by
  have hfails : succeeds call.program ix = false := succeeds_of_error (h.refused hrefusal)
  cases call with
  | set | setCollider | setBounds | setTagSet | setTags =>
    simp [entry, Call.collider?, hfails]
  | setSprite => rfl
  | getOrAdd | searchAll | search | allVertices | resetCounters => cases hrefusal

theorem Consistent.entry_of_some (h : ix.Consistent) (hrefusal : call.refusal? = none)
    {collider : Collider} (hcollider : call.collider? ix = some collider) :
    ix.entry call = .ofUpdate ((ix.colliderOf collider.id).memberships ix.grid)
      (collider.memberships ix.grid) := by
  have hdone : succeeds call.program ix = true := (h.performs hrefusal).succeeds
  cases call with
  | set | setCollider | setBounds | setTagSet | setTags =>
    simp [entry, hcollider, hdone]
  | setSprite | getOrAdd | searchAll | search | allVertices | resetCounters => cases hcollider

/-- The index is consistent, its counters have counted what the ledger says, and of what was joined
it holds what has not been left. -/
structure Books (ix : EntityIndex) (l : Ledger) : Prop where
  consistent : ix.Consistent
  tallied : Tallied ix.counters l
  balance : l.joined = l.removed + ix.held

theorem Books.congr {ix' : EntityIndex} (h : Books ix l) (hconsistent : ix'.Consistent)
    (hcounters : ix'.counters = ix.counters) (hheld : ix'.held = ix.held) :
    Books ix' (l.plus {}) := by
  refine ⟨hconsistent, ?_, ?_⟩
  · rw [hcounters]
    exact h.tallied
  · rw [hheld]
    exact h.balance

theorem Books.search (h : Books ix l) (query : Query) (limit : Option Nat) :
    Books (ix.scan query limit).2
      (l.plus (.ofSearch (ix.visits query limit) (ix.scan query limit).1.size)) := by
  obtain ⟨counters, hscan⟩ := exists_counters_scan ix query limit
  obtain ⟨led, hled, hcounters⟩ := ix.counters_scan query limit
  refine ⟨?_, ?_, ?_⟩
  · rw [hscan]
    exact h.consistent.congr rfl rfl rfl rfl rfl
  · rw [hcounters]
    exact h.tallied.search hled (ix.size_scan_le query limit)
  · rw [hscan]
    exact h.balance

/-- Every call but the one that starts the counters again adds its entry to the books. -/
theorem Books.after (h : Books ix l) (hreset : call ≠ .resetCounters) :
    Books (ix.after call) (l.plus (ix.entry call)) := by
  have hconsistent := (h.consistent.after call).1
  cases hrefusal : call.refusal? with
  | some error =>
    have hsame : ix.after call = ix := by
      rw [after_eq_stateAfter, stateAfter_of_error (h.consistent.refused hrefusal)]
    rw [h.consistent.entry_of_refused hrefusal, hsame]
    exact h
  | none =>
    cases hcollider : call.collider? ix with
    | some collider =>
      obtain ⟨counters, hleaves, hcounters⟩ := h.consistent.counters_after hrefusal hcollider
      rw [h.consistent.entry_of_some hrefusal hcollider]
      refine ⟨hconsistent, ?_, ?_⟩
      · rw [hcounters]
        exact h.tallied.update _ hleaves
      · have hheld := h.consistent.held_after_of_some hrefusal hcollider
        have hbalance := h.balance
        simp only [Ledger.plus, Ledger.ofUpdate]
        omega
    | none =>
      have hheld := h.consistent.held_after_of_none hrefusal hcollider
      cases call with
      | setSprite id sprite =>
        refine h.congr hconsistent ?_ hheld
        have hdone := setSprite_of_none (Option.map_eq_none_iff.mp hrefusal) id ix
        rw [EntityIndex.after, stateAfter_of_ok hdone]
        exact counters_known ix id
      | getOrAdd id =>
        refine h.congr hconsistent ?_ hheld
        rw [EntityIndex.after, stateAfter_of_ok (getOrAdd_eq id ix)]
        exact counters_known ix id
      | allVertices =>
        refine h.congr hconsistent ?_ hheld
        obtain ⟨drawn, stale, hredraw⟩ := exists_redraw_eq ix
        change ix.redraw.counters = _
        rw [hredraw]
      | searchAll query => exact h.search query none
      | search query buffer =>
        rcases Nat.eq_zero_or_pos buffer.size with hempty | hpos
        · rw [Array.eq_empty_of_size_eq_zero hempty]
          exact h
        · have hbuffer : buffer.isEmpty = false := by simpa using Array.ne_empty_of_size_pos hpos
          rw [EntityIndex.after, entry, search_of_pos query hpos, hbuffer]
          exact h.search query (some buffer.size)
      | resetCounters => exact absurd rfl hreset
      | set | setCollider | setBounds | setTagSet | setTags => cases hcollider

/-! ## Runs -/

theorem Books.run (h : Books ix l) {calls : List Call} (hreset : Call.resetCounters ∉ calls) :
    Books (ix.run calls) (l.plus (ix.ledger calls)) := by
  unfold EntityIndex.run
  induction calls generalizing ix l with
  | nil => exact h
  | cons call calls ih =>
    obtain ⟨hcall, hcalls⟩ := not_or.mp (mt List.mem_cons.mpr hreset)
    rw [ledger, ← Ledger.plus_assoc]
    exact ih (h.after (Ne.symm hcall)) hcalls

theorem books_onGrid {grid : Grid} (hgrid : grid.validate = .ok ()) : Books (onGrid grid) {} :=
  ⟨consistent_onGrid hgrid, .empty, rfl⟩

/-- The counters agree with the ledger, with each other and with what the slots hold. -/
structure Reconciled (ix : EntityIndex) (l : Ledger) : Prop where
  updates : ix.counters.colliderUpdates.value.toNat = l.updates
  memberships : l.joined = ix.counters.membershipRemovals.value.toNat + ix.held
  fixups_le : ix.counters.backReferenceFixups.value.toNat ≤
    ix.counters.membershipRemovals.value.toNat
  searches : ix.counters.searches.value.toNat = l.searches
  found : ix.counters.matchesReturned.value.toNat = l.found
  found_le : ix.counters.matchesReturned.value.toNat ≤
    ix.counters.candidatesVisited.value.toNat
  tagDriven_le : ix.counters.tagDrivenSearches.value.toNat ≤ ix.counters.searches.value.toNat

theorem Books.reconciled (h : Books ix l) (hfits : l.Fits) : Reconciled ix l := by
  obtain ⟨hupdates, hremoved, hsearches, hvisited⟩ := hfits
  obtain ⟨fixups, hfixups, hfixupsCount⟩ := h.tallied.fixups
  obtain ⟨led, hled, hledCount⟩ := h.tallied.tagDriven
  have hfound := h.tallied.found_le
  constructor
  · rw [h.tallied.updates, Counter.toNat_upTo hupdates]
  · rw [h.tallied.removals, Counter.toNat_upTo hremoved]
    exact h.balance
  · rw [hfixupsCount, h.tallied.removals, Counter.toNat_upTo hremoved,
      Counter.toNat_upTo (hfixups.trans_lt hremoved)]
    exact hfixups
  · rw [h.tallied.searches, Counter.toNat_upTo hsearches]
  · rw [h.tallied.found, Counter.toNat_upTo (hfound.trans_lt hvisited)]
  · rw [h.tallied.found, h.tallied.visited, Counter.toNat_upTo hvisited,
      Counter.toNat_upTo (hfound.trans_lt hvisited)]
    exact hfound
  · rw [hledCount, h.tallied.searches, Counter.toNat_upTo hsearches,
      Counter.toNat_upTo (hled.trans_lt hsearches)]
    exact hled

/-- After any calls on an empty index whose counters have just been started, the counters agree with
the ledger of the calls. -/
theorem run_reconciled {grid : Grid} {start : EntityIndex} (hnew : new grid = .ok start)
    {calls : List Call} (hreset : Call.resetCounters ∉ calls)
    (hfits : (start.resetCounters.ledger calls).Fits) :
    Reconciled (start.resetCounters.run calls) (start.resetCounters.ledger calls) := by
  obtain ⟨rfl, hgrid⟩ := new_eq_ok hnew
  have hbooks := (books_onGrid hgrid).run hreset
  rw [Ledger.empty_plus] at hbooks
  exact hbooks.reconciled hfits

/-- An entity in two chunks moves out of one of them.  Two calls are refused, and of three searches
the one without a place to write to does not count. -/
theorem reconciled_after_move :
    let square : Rect := .ofSize .zero .zero .one .one
    let calls : List Call :=
      [.setCollider ⟨7, .ofSize .zero .zero (.ofNat 40) .one, .ofList [3]⟩,
        .setCollider ⟨9, square, .ofList [3, 200]⟩, .setTags 9 [300], .setBounds 7 square,
        .setBounds 9 ⟨.one, .zero, .zero, .one⟩, .searchAll ⟨square, .ofList [200], none⟩,
        .search ⟨square, .empty, none⟩ #[], .search ⟨square, .empty, none⟩ #[50]]
    let marked := (onGrid .standard).resetCounters
    new .standard = .ok (onGrid .standard) ∧ Call.resetCounters ∉ calls ∧
      (marked.ledger calls).Fits ∧ Reconciled (marked.run calls) (marked.ledger calls) ∧
      (marked.ledger calls).joined = 8 ∧ (marked.run calls).held = 5 ∧
      (marked.ledger calls).found = 2 := by
  intro square calls marked
  have hnew : new .standard = .ok (onGrid .standard) := rfl
  have hreset : Call.resetCounters ∉ calls := by simp [calls]
  have hfits : (marked.ledger calls).Fits := by decide +kernel
  exact ⟨hnew, hreset, hfits, run_reconciled hnew hreset hfits, by decide +kernel,
    by decide +kernel, by decide +kernel⟩

end EntityIndex
end SpriteField
