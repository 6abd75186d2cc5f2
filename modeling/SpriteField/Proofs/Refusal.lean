import Mathlib.Tactic

/-!
# Programs that can be refused

A program takes a state to a value and a new state, or it is refused and the state it was refused in
is kept.  A program that runs over a list is carried out if each of its steps preserves what the
next one needs.  A change of the state can as well be made after a program as before it if that is
so for each of its steps.
-/

namespace SpriteField

variable {ε σ α β : Type} {state state' : σ}

/-- The state that a program leaves behind, whether or not it was refused. -/
def stateAfter (program : EStateM ε σ α) (state : σ) : σ :=
  match program state with
  | .ok _ state' => state'
  | .error _ state' => state'

def succeeds (program : EStateM ε σ α) (state : σ) : Bool :=
  match program state with
  | .ok _ _ => true
  | .error _ _ => false

theorem stateAfter_of_ok {program : EStateM ε σ α} {value : α}
    (h : program state = .ok value state') : stateAfter program state = state' := by
  rw [stateAfter, h]

theorem stateAfter_of_error {program : EStateM ε σ α} {error : ε}
    (h : program state = .error error state') : stateAfter program state = state' := by
  rw [stateAfter, h]

theorem stateAfter_congr {program program' : EStateM ε σ α} (h : program state = program' state) :
    stateAfter program state = stateAfter program' state := by
  rw [stateAfter, stateAfter, h]

theorem succeeds_of_ok {program : EStateM ε σ α} {value : α}
    (h : program state = .ok value state') : succeeds program state = true := by
  rw [succeeds, h]

theorem succeeds_of_error {program : EStateM ε σ α} {error : ε}
    (h : program state = .error error state') : succeeds program state = false := by
  rw [succeeds, h]

/-- A program that is carried out on valid input and refused on any other is refused on no other. -/
theorem refused_iff_of_cases {program : EStateM ε σ α} {refused : Prop} {valid : Bool}
    (hfails : refused → succeeds program state = false) (hrefused : valid = false → refused)
    (hdone : valid = true → succeeds program state = true) :
    (refused ↔ valid = false) ∧ (succeeds program state = true ↔ valid = true) := by
  cases valid with
  | false => simp [hrefused rfl, hfails (hrefused rfl)]
  | true =>
    simp only [hdone rfl, Bool.true_eq_false, iff_false, and_true]
    intro h
    simp [hfails h] at hdone

theorem bind_of_ok {program : EStateM ε σ α} {next : α → EStateM ε σ β} {value : α}
    (h : program state = .ok value state') : (program >>= next) state = next value state' := by
  change EStateM.bind program next state = _
  rw [EStateM.bind, h]

theorem bind_of_error {program : EStateM ε σ α} {next : α → EStateM ε σ β} {error : ε}
    (h : program state = .error error state') :
    (program >>= next) state = .error error state' := by
  change EStateM.bind program next state = _
  rw [EStateM.bind, h]

theorem tryCatch_of_ok {program : EStateM ε σ α} {handler : ε → EStateM ε σ α} {value : α}
    (h : program state = .ok value state') :
    (tryCatch program handler) state = .ok value state' := by
  change EStateM.tryCatch program handler state = _
  rw [EStateM.tryCatch, h]

theorem tryCatch_of_error {program : EStateM ε σ α} {handler : ε → EStateM ε σ α} {error : ε}
    (h : program state = .error error state') :
    (tryCatch program handler) state = handler error state' := by
  change EStateM.tryCatch program handler state = _
  rw [EStateM.tryCatch, h]
  rfl

theorem bind_congr_of_eq {program program' : EStateM ε σ α} (next : α → EStateM ε σ β)
    (h : program state = program' state) :
    (program >>= next) state = (program' >>= next) state := by
  change EStateM.bind program next state = EStateM.bind program' next state
  rw [EStateM.bind, EStateM.bind, h]

@[simp] theorem get_bind (next : σ → EStateM ε σ β) : (get >>= next) state = next state state := rfl

@[simp] theorem modify_bind (change : σ → σ) (next : PUnit → EStateM ε σ β) :
    (modify change >>= next) state = next ⟨⟩ (change state) := rfl

@[simp] theorem modifyGet_eq (change : σ → α × σ) :
    (modifyGet change : EStateM ε σ α) state = .ok (change state).1 (change state).2 := rfl

/-- Every step of the program is carried out, and `motive` holds of what is left to do. -/
theorem forM_of_step {program : α → EStateM ε σ PUnit} {motive : List α → σ → Prop}
    (step : ∀ {x xs state}, motive (x :: xs) state →
      ∃ state', program x state = .ok ⟨⟩ state' ∧ motive xs state')
    {xs : List α} (h : motive xs state) :
    ∃ state', xs.forM program state = .ok ⟨⟩ state' ∧ motive [] state' := by
  induction xs generalizing state with
  | nil => exact ⟨state, rfl, h⟩
  | cons x xs ih =>
    obtain ⟨next, hnext, hmotive⟩ := step h
    obtain ⟨final, hfinal, hdone⟩ := ih hmotive
    refine ⟨final, ?_, hdone⟩
    change (program x >>= fun _ => xs.forM program) state = _
    rw [bind_of_ok hnext, hfinal]

/-- Two programs whose steps agree wherever `motive` holds agree on the whole list. -/
theorem forM_congr_of_step {program program' : α → EStateM ε σ PUnit}
    {motive : List α → σ → Prop}
    (step : ∀ {x xs state}, motive (x :: xs) state → program x state = program' x state ∧
      ∃ state', program' x state = .ok ⟨⟩ state' ∧ motive xs state')
    {xs : List α} (h : motive xs state) : xs.forM program state = xs.forM program' state := by
  induction xs generalizing state with
  | nil => rfl
  | cons x xs ih =>
    obtain ⟨heq, next, hnext, hmotive⟩ := step h
    change (program x >>= fun _ => xs.forM program) state =
      (program' x >>= fun _ => xs.forM program') state
    rw [bind_of_ok (heq.trans hnext), bind_of_ok hnext, ih hmotive]

/-- Every step is carried out, and the program answers with the list of their values. -/
theorem mapM_of_step {program : α → EStateM ε σ β} {motive : List α → List β → σ → Prop}
    (step : ∀ {x xs values state}, motive (x :: xs) values state →
      ∃ value state', program x state = .ok value state' ∧ motive xs (values ++ [value]) state')
    {xs : List α} {values : List β} (h : motive xs values state) :
    ∃ values' state', xs.mapM program state = .ok values' state' ∧
      motive [] (values ++ values') state' := by
  induction xs generalizing values state with
  | nil => exact ⟨[], state, rfl, by rwa [List.append_nil]⟩
  | cons x xs ih =>
    obtain ⟨value, next, hnext, hmotive⟩ := step h
    obtain ⟨values', final, hfinal, hdone⟩ := ih hmotive
    refine ⟨value :: values', final, ?_, by rwa [List.append_cons]⟩
    rw [List.mapM_cons, bind_of_ok hnext, bind_of_ok hfinal]
    rfl

/-! ## What a program that was carried out has done -/

theorem exists_of_bind_eq_ok {program : EStateM ε σ α} {next : α → EStateM ε σ β} {value : β}
    (h : (program >>= next) state = .ok value state') :
    ∃ middle between, program state = .ok middle between ∧
      next middle between = .ok value state' := by
  change EStateM.bind program next state = _ at h
  rw [EStateM.bind] at h
  split at h
  next middle between hprogram => exact ⟨middle, between, hprogram, h⟩
  next => cases h

theorem forM_preserves {program : α → EStateM ε σ PUnit} {motive : List α → σ → Prop}
    (step : ∀ {x xs state state'}, motive (x :: xs) state → program x state = .ok ⟨⟩ state' →
      motive xs state')
    {xs : List α} (h : motive xs state) (hdone : xs.forM program state = .ok ⟨⟩ state') :
    motive [] state' := by
  induction xs generalizing state with
  | nil =>
    cases hdone
    exact h
  | cons x xs ih =>
    obtain ⟨_, between, hstep, hrest⟩ := exists_of_bind_eq_ok hdone
    exact ih (step h hstep) hrest

theorem mapM_preserves {program : α → EStateM ε σ β} {motive : List α → σ → Prop}
    (step : ∀ {x xs value state state'}, motive (x :: xs) state →
      program x state = .ok value state' → motive xs state')
    {xs : List α} {values : List β} (h : motive xs state)
    (hdone : xs.mapM program state = .ok values state') : motive [] state' := by
  induction xs generalizing values state with
  | nil =>
    cases hdone
    exact h
  | cons x xs ih =>
    rw [List.mapM_cons] at hdone
    obtain ⟨value, between, hstep, hrest⟩ := exists_of_bind_eq_ok hdone
    obtain ⟨rest, last, hmap, hpure⟩ := exists_of_bind_eq_ok hrest
    cases hpure
    exact ih (step h hstep) hmap

/-! ## Changes of the state before and after a program -/

section Commutes

variable {change : σ → σ}

/-- The outcome of a program with its state changed. -/
def changeState (change : σ → σ) : EStateM.Result ε σ α → EStateM.Result ε σ α
  | .ok value state => .ok value (change state)
  | .error error state => .error error (change state)

/-- Whether the state is changed before the program or after it makes no difference. -/
def Commutes (change : σ → σ) (program : EStateM ε σ α) : Prop :=
  ∀ state, program (change state) = changeState change (program state)

theorem Commutes.of_ok {program : EStateM ε σ α} {value : α}
    (h : Commutes change program) (hrun : program state = .ok value state') :
    program (change state) = .ok value (change state') := by
  rw [h, hrun]
  rfl

theorem Commutes.of_error {program : EStateM ε σ α} {error : ε}
    (h : Commutes change program) (hrun : program state = .error error state') :
    program (change state) = .error error (change state') := by
  rw [h, hrun]
  rfl

theorem commutes_pure (value : α) : Commutes change (pure value : EStateM ε σ α) :=
  fun _ => rfl

theorem commutes_throw (error : ε) : Commutes change (throw error : EStateM ε σ α) :=
  fun _ => rfl

theorem commutes_modify {change' : σ → σ}
    (h : ∀ state, change' (change state) = change (change' state)) :
    Commutes change (modify change' : EStateM ε σ PUnit) := by
  intro state
  change EStateM.Result.ok PUnit.unit (change' (change state)) = _
  rw [h]
  rfl

theorem Commutes.bind {program : EStateM ε σ α} {next : α → EStateM ε σ β}
    (h : Commutes change program) (hnext : ∀ value, Commutes change (next value)) :
    Commutes change (program >>= next) := by
  intro state
  cases hrun : program state with
  | ok value state' => rw [bind_of_ok (h.of_ok hrun), bind_of_ok hrun, hnext]
  | error error state' =>
    rw [bind_of_error (h.of_error hrun), bind_of_error hrun]
    rfl

theorem commutes_get_bind {next : σ → EStateM ε σ β}
    (hread : ∀ state, next (change state) = next state)
    (hnext : ∀ state, Commutes change (next state)) : Commutes change (get >>= next) := by
  intro state
  rw [get_bind, get_bind, hread, hnext]

theorem commutes_forM {program : α → EStateM ε σ PUnit} (h : ∀ x, Commutes change (program x))
    (xs : List α) : Commutes change (xs.forM program) := by
  induction xs with
  | nil => exact commutes_pure _
  | cons x xs ih => exact (h x).bind fun _ => ih

theorem commutes_mapM {program : α → EStateM ε σ β} (h : ∀ x, Commutes change (program x))
    (xs : List α) : Commutes change (xs.mapM program) := by
  induction xs with
  | nil => exact commutes_pure _
  | cons x xs ih =>
    rw [List.mapM_cons]
    exact (h x).bind fun _ => ih.bind fun _ => commutes_pure _

end Commutes

end SpriteField
