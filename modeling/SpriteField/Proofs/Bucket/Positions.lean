import SpriteField.Proofs.Bucket
import SpriteField.Proofs.Refusal

/-!
# Positions followed through removals

A client numbers the elements that it puts into a bucket, and notes where each of them lies.  It
learns of positions from its own pushes and from the moves that removals report, and from nothing
else.  That is enough: its notes are exact at any time, and so is each of them that a report
changes.

The numbers are the client's alone.  Without them the bucket goes through the same states, whether
or not some of the values are equal.
-/

namespace SpriteField
namespace Bucket

variable {α β σ : Type}

/-! ## What lies where -/

theorem getElem?_push (b : Bucket α) (value : α) (p : Nat) :
    (b.push value).items[p]? = if p = b.size then some value else b.items[p]? :=
  Array.getElem?_push

theorem getElem?_swapPop {b : Bucket α} {i : Nat} (hi : i < b.size) (p : Nat) :
    (b.swapPop i).items[p]? =
      if p + 1 < b.size then (if p = i then b.items[b.size - 1]? else b.items[p]?) else none := by
  rw [swapPop, SpriteField.getElem?_swapPop hi, Array.back?_eq_getElem?]
  rfl

theorem get_of_le {b : Bucket α} {i : Nat} (h : b.size ≤ i) :
    b.get i = .error (.indexOutOfBounds i b.size) := by
  rw [get, Array.getElem?_eq_none h]

theorem get_eq_ok_iff {b : Bucket α} {i : Nat} {value : α} :
    b.get i = .ok value ↔ b.items[i]? = some value := by
  rw [get]
  cases b.items[i]? <;> simp

theorem swapRemove_of_ok {b : Bucket α} {i : Nat} {value : α} (h : b.get i = .ok value) :
    b.swapRemove i = .ok ⟨value, b.moved i, b.swapPop i⟩ := by
  rw [swapRemove, h]
  rfl

theorem swapRemove_of_le {b : Bucket α} {i : Nat} (h : b.size ≤ i) :
    b.swapRemove i = .error (.indexOutOfBounds i b.size) := by
  rw [swapRemove, get_of_le h]
  rfl

/-! ## Removals that report to a client -/

def append (value : α) : EStateM BucketError (Bucket α × σ) Nat :=
  modifyGet fun (b, s) => (b.size, b.push value, s)

/-- Removes the element at `i`, and calls `fix` with the element that moves, if there is one. -/
def swapRemoveWith (fix : α → Relocation → σ → σ) (i : Nat) :
    EStateM BucketError (Bucket α × σ) α := do
  let (b, _) ← MonadState.get
  match b.swapRemove i with
  | .error error => throw error
  | .ok removal =>
    modify fun (_, s) => (removal.bucket, s)
    match removal.moved with
    | some (element, move) => modify fun (b, s) => (b, fix element move s)
    | none => pure ()
    return removal.removed

/-- What the client keeps after a removal at `i`. -/
def fixed (fix : α → Relocation → σ → σ) (b : Bucket α) (i : Nat) (s : σ) : σ :=
  match b.moved i with
  | some (element, move) => fix element move s
  | none => s

theorem swapRemoveWith_of_ok {fix : α → Relocation → σ → σ} {b : Bucket α} {i : Nat} {value : α}
    (h : b.get i = .ok value) (s : σ) :
    swapRemoveWith fix i (b, s) = .ok value (b.swapPop i, fixed fix b i s) := by
  rw [swapRemoveWith, get_bind]
  dsimp only
  rw [swapRemove_of_ok h]
  dsimp only
  rw [modify_bind, fixed]
  cases b.moved i with
  | none => rfl
  | some moved => rfl

theorem swapRemoveWith_of_le {b : Bucket α} {i : Nat} (h : b.size ≤ i)
    (fix : α → Relocation → σ → σ) (s : σ) :
    swapRemoveWith fix i (b, s) = .error (.indexOutOfBounds i b.size) (b, s) := by
  rw [swapRemoveWith, get_bind]
  dsimp only
  rw [swapRemove_of_le h]
  rfl

/-! ## The client -/

/-- A report of a move, with the position that the client had noted for the element. -/
structure Fix (α : Type) where
  element : Nat × α
  move : Relocation
  noted : Option Nat

/-- What the client knows: how many elements it has put in, where those lie that are still there,
and how it was told of moves. -/
structure Notes (α : Type) where
  pushes : Nat
  position : Nat → Option Nat
  fixes : List (Fix α)

namespace Notes

def blank : Notes α := ⟨0, fun _ => none, []⟩

def put (notes : Notes α) (position : Nat) : Notes α :=
  { notes with
    pushes := notes.pushes + 1
    position := Function.update notes.position notes.pushes (some position) }

def forget (notes : Notes α) (handle : Nat) : Notes α :=
  { notes with position := Function.update notes.position handle none }

def fix (element : Nat × α) (move : Relocation) (notes : Notes α) : Notes α :=
  { notes with
    position := Function.update notes.position element.1 (some move.target)
    fixes := notes.fixes ++ [⟨element, move, notes.position element.1⟩] }

end Notes

inductive Call (α : Type) where
  | push (value : α)
  | remove (index : Nat)

abbrev Client (α : Type) := Bucket (Nat × α) × Notes α

def perform : Call α → EStateM BucketError (Client α) Unit
  | .push value => do
    let (_, notes) ← MonadState.get
    let position ← append (notes.pushes, value)
    modify fun (b, notes) => (b, notes.put position)
  | .remove i => do
    let (handle, _) ← swapRemoveWith Notes.fix i
    modify fun (b, notes) => (b, notes.forget handle)

def runClient (calls : List (Call α)) : Client α :=
  calls.foldl (fun client call => stateAfter (perform call) client) (empty, .blank)

/-- The bucket alone after a call, whether or not it was refused. -/
def after (b : Bucket α) : Call α → Bucket α
  | .push value => b.push value
  | .remove i =>
    match b.swapRemove i with
    | .ok removal => removal.bucket
    | .error _ => b

def run (calls : List (Call α)) : Bucket α :=
  calls.foldl after empty

def Call.pushed? : Call α → Option α
  | .push value => some value
  | .remove _ => none

/-- The value that was pushed under each number. -/
def pushed (calls : List (Call α)) : List α :=
  calls.filterMap Call.pushed?

theorem perform_push (client : Client α) (value : α) :
    perform (.push value) client =
      .ok () (client.1.push (client.2.pushes, value), client.2.put client.1.size) :=
  rfl

theorem perform_remove_of_le {client : Client α} {i : Nat} (h : client.1.size ≤ i) :
    perform (.remove i) client = .error (.indexOutOfBounds i client.1.size) client := by
  rw [perform, bind_of_error (swapRemoveWith_of_le h _ _)]

theorem perform_remove_of_ok {client : Client α} {i handle : Nat} {value : α}
    (h : client.1.get i = .ok (handle, value)) :
    perform (.remove i) client =
      .ok () (client.1.swapPop i, (fixed Notes.fix client.1 i client.2).forget handle) := by
  rw [perform, bind_of_ok (swapRemoveWith_of_ok h _)]
  rfl

/-! ## Exact notes -/

/-- Elements and notes name each other, and an element has the value that was pushed under its
number.  Every report of a move named an element that was noted where it came from. -/
structure Exact (values : List α) (b : Bucket (Nat × α)) (notes : Notes α) : Prop where
  pushes : notes.pushes = values.length
  noted : ∀ {p handle : Nat} {value : α}, b.items[p]? = some (handle, value) →
    notes.position handle = some p
  found : ∀ {p handle : Nat}, notes.position handle = some p →
    ∃ value, b.items[p]? = some (handle, value)
  value : ∀ {p handle : Nat} {value : α}, b.items[p]? = some (handle, value) →
    values[handle]? = some value
  fixes : ∀ fix ∈ notes.fixes, fix.noted = some fix.move.source

namespace Exact

variable {values : List α} {b : Bucket (Nat × α)} {notes : Notes α} {i handle : Nat}

theorem blank : Exact [] empty (.blank : Notes α) := by
  constructor <;> simp [empty, Notes.blank]

theorem lt_size (h : Exact values b notes) (hposition : notes.position handle = some i) :
    i < b.size := by
  obtain ⟨value, hget⟩ := h.found hposition
  exact (Array.getElem?_eq_some_iff.mp hget).1

theorem handle_eq (h : Exact values b notes) {handle' : Nat}
    (hposition : notes.position handle = some i) (hposition' : notes.position handle' = some i) :
    handle = handle' := by
  obtain ⟨value, hget⟩ := h.found hposition
  obtain ⟨value', hget'⟩ := h.found hposition'
  rw [hget] at hget'
  exact congrArg Prod.fst (Option.some.inj hget')

theorem ne_pushes (h : Exact values b notes) {p : Nat} {value : α}
    (hget : b.items[p]? = some (handle, value)) : handle ≠ notes.pushes := by
  rintro rfl
  have hvalue := h.value hget
  rw [h.pushes, List.getElem?_eq_none (Nat.le_refl _)] at hvalue
  cases hvalue

theorem push (h : Exact values b notes) (value : α) :
    Exact (values ++ [value]) (b.push (notes.pushes, value)) (notes.put b.size) where
  pushes := by simp [Notes.put, h.pushes]
  noted := by
    intro p handle value' hget
    rw [getElem?_push] at hget
    simp only [Notes.put]
    split at hget
    next hp =>
      cases hget
      rw [Function.update_self, hp]
    next => rw [Function.update_of_ne (h.ne_pushes hget), h.noted hget]
  found := by
    intro p handle hposition
    rw [getElem?_push]
    simp only [Notes.put] at hposition
    by_cases hnew : handle = notes.pushes
    · subst hnew
      rw [Function.update_self] at hposition
      cases hposition
      exact ⟨value, if_pos rfl⟩
    · rw [Function.update_of_ne hnew] at hposition
      obtain ⟨value', hget⟩ := h.found hposition
      exact ⟨value', by rw [if_neg (Nat.ne_of_lt (h.lt_size hposition)), hget]⟩
  value := by
    intro p handle value' hget
    rw [getElem?_push] at hget
    split at hget
    next =>
      cases hget
      rw [h.pushes, List.getElem?_concat_length]
    next =>
      have hvalue := h.value hget
      rw [List.getElem?_append_left (List.getElem?_eq_some_iff.mp hvalue).1, hvalue]
  fixes := h.fixes

/-- The element that a removal moves is the one noted last, and the client is told so. -/
theorem fixed_eq (h : Exact values b notes) (hi : i + 1 < b.size) :
    ∃ fix : Fix α, b.items.back? = some fix.element ∧ fix.move = ⟨b.size - 1, i⟩ ∧
      notes.position fix.element.1 = some (b.size - 1) ∧
      fixed Notes.fix b i notes = notes.fix fix.element fix.move := by
  have hpos : 0 < b.items.size := Nat.zero_lt_of_lt hi
  obtain ⟨last, hlast⟩ := exists_back?_eq hpos
  refine ⟨⟨last, ⟨b.size - 1, i⟩, none⟩, hlast, rfl, ?_, ?_⟩
  · rw [Array.back?_eq_getElem?] at hlast
    exact h.noted hlast
  · rw [fixed, moved_of_lt hi hlast]

/-- After a removal the element that was last is noted where the removed one was. -/
theorem position_removed (h : Exact values b notes) (hposition : notes.position handle = some i)
    (other : Nat) :
    ((fixed Notes.fix b i notes).forget handle).position other =
      if other = handle then none
      else if notes.position other = some (b.size - 1) then some i
      else notes.position other := by
  have hi := h.lt_size hposition
  simp only [Notes.forget]
  by_cases hother : other = handle
  · rw [if_pos hother, hother, Function.update_self]
  · rw [if_neg hother, Function.update_of_ne hother]
    by_cases hlast : i + 1 = b.size
    · rw [fixed, moved_of_last hlast, if_neg]
      intro hsame
      rw [show b.size - 1 = i by omega] at hsame
      exact hother (h.handle_eq hsame hposition)
    · obtain ⟨fix, -, hmove, hnoted, hfixed⟩ := h.fixed_eq (i := i) (by omega)
      rw [hfixed, hmove]
      simp only [Notes.fix]
      by_cases hmoved : other = fix.element.1
      · rw [hmoved, if_pos hnoted, Function.update_self]
      · rw [Function.update_of_ne hmoved, if_neg]
        intro hsame
        exact hmoved (h.handle_eq hsame hnoted)

theorem fixes_removed (h : Exact values b notes) (hi : i < b.size) :
    ∀ fix ∈ (fixed Notes.fix b i notes).fixes, fix.noted = some fix.move.source := by
  by_cases hlast : i + 1 = b.size
  · rw [fixed, moved_of_last hlast]
    exact h.fixes
  · obtain ⟨fix, -, hmove, hnoted, hfixed⟩ := h.fixed_eq (i := i) (by omega)
    rw [hfixed]
    simp only [Notes.fix, List.mem_append, List.mem_singleton]
    rintro fix' (hold | rfl)
    · exact h.fixes fix' hold
    · rw [hmove, hnoted]

theorem pushes_removed (b : Bucket (Nat × α)) (i : Nat) (notes : Notes α) :
    (fixed Notes.fix b i notes).pushes = notes.pushes := by
  rw [fixed]
  split <;> rfl

theorem remove (h : Exact values b notes) (hposition : notes.position handle = some i) :
    Exact values (b.swapPop i) ((fixed Notes.fix b i notes).forget handle) where
  pushes := (pushes_removed b i notes).trans h.pushes
  noted := by
    intro p other value hget
    have hne : ∀ {q}, notes.position other = some q → q ≠ i → other ≠ handle := by
      rintro q hnoted hq rfl
      rw [hposition] at hnoted
      exact hq (Option.some.inj hnoted).symm
    rw [getElem?_swapPop (h.lt_size hposition)] at hget
    rw [h.position_removed hposition]
    split at hget
    next hp =>
      split at hget
      next heq =>
        -- the element in the gap is the one that was last
        have hnoted := h.noted hget
        rw [if_neg (hne hnoted (by omega)), if_pos hnoted, heq]
      next hgap =>
        have hnoted := h.noted hget
        rw [if_neg (hne hnoted hgap), hnoted, if_neg]
        rw [Option.some.injEq]
        omega
    next => cases hget
  found := by
    intro p other hother
    rw [h.position_removed hposition] at hother
    rw [getElem?_swapPop (h.lt_size hposition)]
    split at hother
    next => cases hother
    next hne =>
      have hgap : ∀ {q}, notes.position other = some q → q ≠ i := by
        rintro q hnoted rfl
        exact hne (h.handle_eq hnoted hposition)
      split at hother
      next hlast =>
        cases hother
        obtain ⟨value, hget⟩ := h.found hlast
        have hmoves := hgap hlast
        have hi := h.lt_size hposition
        exact ⟨value, by rw [if_pos (by omega), if_pos rfl, hget]⟩
      next hlast =>
        obtain ⟨value, hget⟩ := h.found hother
        have hp := h.lt_size hother
        rw [hother, Option.some.injEq] at hlast
        exact ⟨value, by rw [if_pos (by omega), if_neg (hgap hother), hget]⟩
  value := by
    intro p other value hget
    obtain ⟨q, hq⟩ := Array.mem_iff_getElem?.mp
      (mem_of_mem_swapPop (h.lt_size hposition) (Array.mem_of_getElem? hget))
    exact h.value hq
  fixes := h.fixes_removed (h.lt_size hposition)

theorem perform {client : Client α} (h : Exact values client.1 client.2) (call : Call α) :
    Exact (values ++ call.pushed?.toList) (stateAfter (perform call) client).1
      (stateAfter (perform call) client).2 := by
  cases call with
  | push value =>
    rw [stateAfter_of_ok (perform_push client value)]
    exact h.push value
  | remove i =>
    rw [Call.pushed?, Option.toList_none, List.append_nil]
    by_cases hi : i < client.1.size
    · obtain ⟨⟨handle, value⟩, hget⟩ := exists_get_eq_ok hi
      rw [stateAfter_of_ok (perform_remove_of_ok hget)]
      exact h.remove (h.noted (get_eq_ok_iff.mp hget))
    · rw [stateAfter_of_error (perform_remove_of_le (Nat.not_lt.mp hi))]
      exact h

end Exact

theorem runClient_concat (calls : List (Call α)) (call : Call α) :
    runClient (calls ++ [call]) = stateAfter (perform call) (runClient calls) :=
  List.foldl_concat ..

theorem pushed_concat (calls : List (Call α)) (call : Call α) :
    pushed (calls ++ [call]) = pushed calls ++ call.pushed?.toList := by
  cases call <;> simp [pushed, Call.pushed?]

theorem exact_runClient (calls : List (Call α)) :
    Exact (pushed calls) (runClient calls).1 (runClient calls).2 := by
  induction calls using List.reverseRecOn with
  | nil => exact .blank
  | append_singleton calls call ih =>
    rw [runClient_concat, pushed_concat]
    exact ih.perform call

/-! ## The bucket without the numbers -/

def values (b : Bucket (Nat × α)) : Bucket α :=
  ⟨b.items.map Prod.snd⟩

@[simp] theorem size_values (b : Bucket (Nat × α)) : b.values.size = b.size :=
  Array.size_map

theorem getElem?_values (b : Bucket (Nat × α)) (p : Nat) :
    b.values.items[p]? = b.items[p]?.map Prod.snd :=
  Array.getElem?_map

theorem values_push (b : Bucket (Nat × α)) (element : Nat × α) :
    (b.push element).values = b.values.push element.2 :=
  congrArg Bucket.mk Array.map_push

theorem values_swapPop {b : Bucket (Nat × α)} {i : Nat} (hi : i < b.size) :
    (b.swapPop i).values = b.values.swapPop i := by
  refine congrArg Bucket.mk (Array.ext_getElem? fun p => ?_)
  change (b.swapPop i).values.items[p]? = (b.values.swapPop i).items[p]?
  rw [getElem?_values, getElem?_swapPop hi, getElem?_swapPop (by rwa [size_values]),
    size_values, getElem?_values, getElem?_values]
  split
  · split <;> rfl
  · rfl

theorem after_remove_of_lt {b : Bucket α} {i : Nat} (hi : i < b.size) :
    b.after (.remove i) = b.swapPop i := by
  obtain ⟨value, hget⟩ := exists_get_eq_ok hi
  rw [after, swapRemove_of_ok hget]

theorem after_remove_of_le {b : Bucket α} {i : Nat} (hi : b.size ≤ i) :
    b.after (.remove i) = b := by
  rw [after, swapRemove_of_le hi]

theorem values_perform (client : Client α) (call : Call α) :
    (stateAfter (perform call) client).1.values = client.1.values.after call := by
  cases call with
  | push value =>
    rw [stateAfter_of_ok (perform_push client value)]
    exact values_push _ _
  | remove i =>
    by_cases hi : i < client.1.size
    · obtain ⟨⟨handle, value⟩, hget⟩ := exists_get_eq_ok hi
      rw [stateAfter_of_ok (perform_remove_of_ok hget), values_swapPop hi,
        after_remove_of_lt (by rwa [size_values])]
    · rw [stateAfter_of_error (perform_remove_of_le (Nat.not_lt.mp hi)),
        after_remove_of_le (by rwa [size_values, ← Nat.not_lt])]

theorem values_runClient (calls : List (Call α)) : (runClient calls).1.values = run calls := by
  induction calls using List.reverseRecOn with
  | nil => simp [runClient, run, values, empty]
  | append_singleton calls call ih =>
    rw [runClient_concat, values_perform, ih, run, run, List.foldl_concat]

/-! ## Every element is followed -/

/-- The notes have one number for each position, and the element there was pushed under it.  Every
report of a move named an element that was noted where it came from. -/
structure Followed (pushed : List α) (b : Bucket α) (notes : Notes α) : Prop where
  within : ∀ {handle p : Nat}, notes.position handle = some p → p < b.size
  unique : ∀ p < b.size, ∃! handle, notes.position handle = some p
  pushed : ∀ {handle p : Nat}, notes.position handle = some p →
    ∃ value, pushed[handle]? = some value ∧ b.get p = .ok value
  fixes : ∀ fix ∈ notes.fixes, fix.noted = some fix.move.source

theorem Exact.followed {pushed : List α} {b : Bucket (Nat × α)} {notes : Notes α}
    (h : Exact pushed b notes) : Followed pushed b.values notes where
  within hposition := by
    rw [size_values]
    exact h.lt_size hposition
  unique p hp := by
    rw [size_values] at hp
    obtain ⟨⟨handle, value⟩, hget⟩ := exists_get_eq_ok hp
    have hposition := h.noted (get_eq_ok_iff.mp hget)
    exact ⟨handle, hposition, fun _ hother => h.handle_eq hother hposition⟩
  pushed hposition := by
    obtain ⟨value, hget⟩ := h.found hposition
    refine ⟨value, h.value hget, get_eq_ok_iff.mpr ?_⟩
    rw [getElem?_values, hget]
    rfl
  fixes := h.fixes

/-- A removal at `i` drops the number that was noted there and no other.  A move is reported once,
with the element that now lies in the gap, and nothing is reported if the last element is removed. -/
structure Forgets (i : Nat) (before after : Client α) : Prop where
  forgotten : ∀ handle, after.2.position handle = none ↔
    before.2.position handle = none ∨ before.2.position handle = some i
  fixes : i + 1 = before.1.size ∧ after.2.fixes = before.2.fixes ∨
    ∃ fix : Fix α, after.2.fixes = before.2.fixes ++ [fix] ∧
      fix.move = ⟨before.1.size - 1, i⟩ ∧ after.1.get i = .ok fix.element

theorem Exact.forgets {pushed : List α} {client : Client α} {i handle : Nat}
    (h : Exact pushed client.1 client.2) (hposition : client.2.position handle = some i) :
    Forgets i client (client.1.swapPop i, (fixed Notes.fix client.1 i client.2).forget handle) where
  forgotten other := by
    dsimp only
    rw [h.position_removed hposition]
    by_cases hother : other = handle
    · simp [hother, hposition]
    · have hne : client.2.position other ≠ some i :=
        fun hsame => hother (h.handle_eq hsame hposition)
      rw [if_neg hother]
      split <;> simp_all
  fixes := by
    by_cases hlast : i + 1 = client.1.size
    · refine .inl ⟨hlast, ?_⟩
      rw [fixed, moved_of_last hlast]
      rfl
    · have hi := h.lt_size hposition
      obtain ⟨fix, hback, hmove, hnoted, hfixed⟩ := h.fixed_eq (i := i) (by omega)
      refine .inr ⟨⟨fix.element, fix.move, client.2.position fix.element.1⟩, ?_, hmove, ?_⟩
      · rw [hfixed]
        rfl
      · rw [get_eq_ok_iff, getElem?_swapPop hi, if_pos (by omega), if_pos rfl]
        rwa [Array.back?_eq_getElem?] at hback

/-- A client that notes where its elements were put and where they were moved to can find each of
them at any time.  A removal that is refused changes nothing and reports nothing. -/
theorem run_followed (calls : List (Call α)) :
    (runClient calls).1.values = run calls ∧
      Followed (pushed calls) (run calls) (runClient calls).2 ∧
      ∀ i, if i < (run calls).size then
          ∃ after, perform (.remove i) (runClient calls) = .ok () after ∧
            Forgets i (runClient calls) after
        else
          perform (.remove i) (runClient calls) =
            .error (.indexOutOfBounds i (run calls).size) (runClient calls) := by
  have hexact := exact_runClient calls
  rw [← values_runClient, size_values]
  refine ⟨rfl, hexact.followed, fun i => ?_⟩
  split
  next hi =>
    obtain ⟨⟨handle, value⟩, hget⟩ := exists_get_eq_ok hi
    exact ⟨_, perform_remove_of_ok hget, hexact.forgets (hexact.noted (get_eq_ok_iff.mp hget))⟩
  next hi => exact perform_remove_of_le (Nat.not_lt.mp hi)

/-- Equal values are told apart: the third takes the place of the first. -/
example : let notes := (runClient [.push 5, .push 5, .push 5, .remove 0, .remove 7, .push 5]).2
    notes.position 0 = none ∧ notes.position 1 = some 1 ∧ notes.position 2 = some 0 ∧
      notes.position 3 = some 2 := by
  decide

end Bucket
end SpriteField
