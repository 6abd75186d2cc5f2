import SpriteField.Proofs.Refusal
import SpriteField.Workload.Simulation

/-!
# How simulated runs end

A program is described by what it may be refused with and by what holds if it is carried out.  One
rule for each way of putting programs together carries such a description from the parts to the
whole, so that a loop needs no more than what one of its rounds does.
-/

namespace SpriteField

/-- In this state the program is refused only as `allowed`; if it is carried out, its value and the
new state are as in `post`. -/
def EndsIn (allowed : ε → Prop) (program : EStateM ε σ α) (state : σ) (post : α → σ → Prop) :
    Prop :=
  match program state with
  | .ok value state' => post value state'
  | .error error _ => allowed error

namespace EndsIn

variable {ε σ α β : Type} {allowed : ε → Prop} {state state' : σ} {post : α → σ → Prop}

theorem of_ok {program : EStateM ε σ α} {value : α} (h : program state = .ok value state')
    (hpost : post value state') : EndsIn allowed program state post := by
  rw [EndsIn, h]
  exact hpost

theorem of_error {program : EStateM ε σ α} {error : ε} (h : program state = .error error state')
    (hallowed : allowed error) : EndsIn allowed program state post := by
  rw [EndsIn, h]
  exact hallowed

theorem pure {value : α} (h : post value state) :
    EndsIn allowed (Pure.pure value : EStateM ε σ α) state post := h

theorem mono {program : EStateM ε σ α} {allowed' : ε → Prop} {post' : α → σ → Prop}
    (h : EndsIn allowed program state post) (hallowed : ∀ error, allowed error → allowed' error)
    (hpost : ∀ value state', post value state' → post' value state') :
    EndsIn allowed' program state post' := by
  unfold EndsIn at h ⊢
  cases hprogram : program state with
  | ok value state' =>
    rw [hprogram] at h
    exact hpost value state' h
  | error error state' =>
    rw [hprogram] at h
    exact hallowed error h

theorem bind {program : EStateM ε σ α} {next : α → EStateM ε σ β} {post : β → σ → Prop}
    {middle : α → σ → Prop} (h : EndsIn allowed program state middle)
    (hnext : ∀ value between, middle value between → EndsIn allowed (next value) between post) :
    EndsIn allowed (program >>= next) state post := by
  unfold EndsIn at h
  cases hprogram : program state with
  | ok value between =>
    rw [hprogram] at h
    unfold EndsIn
    rw [bind_of_ok hprogram]
    exact hnext value between h
  | error error between =>
    rw [hprogram] at h
    exact of_error (bind_of_error hprogram) h

theorem get_bind {next : σ → EStateM ε σ β} {post : β → σ → Prop}
    (h : EndsIn allowed (next state) state post) : EndsIn allowed (get >>= next) state post :=
  h

/-- The rounds of a loop, counted. -/
theorem forM_range {program : Nat → EStateM ε σ PUnit} {motive : Nat → σ → Prop} {n : Nat}
    (step : ∀ i, i < n → ∀ state, motive i state →
      EndsIn allowed (program i) state fun _ => motive (i + 1))
    (h : motive 0 state) :
    EndsIn allowed ((List.range n).forM program) state fun _ => motive n := by
  induction n with
  | zero => exact pure h
  | succ n ih =>
    rw [List.range_succ, List.forM_eq_forM, List.forM_append]
    refine (ih fun i hi => step i (Nat.lt_succ_of_lt hi)).bind ?_
    intro _ between hbetween
    rw [List.forM_cons]
    refine (step n (Nat.lt_succ_self n) between hbetween).bind ?_
    intro _ final hfinal
    exact pure hfinal

/-- What a program ends in is known to be where it leads. -/
theorem traced {program : EStateM ε σ α} {post : α → σ → Prop}
    (h : EndsIn allowed program state post) : EndsIn allowed program state fun value state' =>
      post value state' ∧ program state = .ok value state' := by
  unfold EndsIn at h ⊢
  cases hprogram : program state with
  | ok value state' =>
    rw [hprogram] at h
    exact ⟨h, rfl⟩
  | error error state' =>
    rw [hprogram] at h
    exact h

/-- The elements of a list, counted. -/
theorem forM_counted {program : α → EStateM ε σ PUnit} {motive : Nat → σ → Prop} {xs : List α}
    (step : ∀ x ∈ xs, ∀ n state, motive n state →
      EndsIn allowed (program x) state fun _ => motive (n + 1))
    {n : Nat} (h : motive n state) :
    EndsIn allowed (xs.forM program) state fun _ => motive (n + xs.length) := by
  induction xs generalizing n state with
  | nil => exact pure h
  | cons x xs ih =>
    refine (step x List.mem_cons_self n state h).bind ?_
    intro _ between hbetween
    rw [List.length_cons, Nat.add_comm xs.length, ← Nat.add_assoc]
    exact ih (fun x' hx' => step x' (List.mem_cons_of_mem x hx')) hbetween

/-- The rounds of a loop that carries a value on, counted. -/
theorem foldlM_range {program : β → Nat → EStateM ε σ β} {motive : Nat → β → σ → Prop} {n : Nat}
    {init : β} (step : ∀ i < n, ∀ value state, motive i value state →
      EndsIn allowed (program value i) state (motive (i + 1)))
    (h : motive 0 init state) :
    EndsIn allowed ((List.range n).foldlM program init) state (motive n) := by
  induction n with
  | zero => exact pure h
  | succ n ih =>
    rw [List.range_succ, List.foldlM_append]
    refine (ih fun i hi => step i (Nat.lt_succ_of_lt hi)).bind ?_
    intro value between hbetween
    rw [List.foldlM_cons]
    refine (step n (Nat.lt_succ_self n) value between hbetween).bind ?_
    intro final last hlast
    exact pure hlast

end EndsIn

namespace Workload

/-- What a run may be refused with, because the settings ask for too much. -/
inductive Expected : EngineError → Prop
  | invalidBounds {id : Nat} {bounds : Rect} (h : bounds.isValid = false) :
    Expected (.invalidBounds id bounds)
  | atlasFull {width height maxWidth maxHeight : Nat}
    (h : maxWidth < width ∨ maxHeight < height) :
    Expected (.atlasFull width height maxWidth maxHeight)

namespace Simulation

variable {σ α β : Type}

theorem endsIn_onState {allowed : EngineError → Prop} {change : EStateM EngineError σ α}
    {sim : Simulation σ} {post : α → σ → Prop} (h : EndsIn allowed change sim.state post) :
    EndsIn allowed (onState change) sim fun value sim' => post value sim'.state := by
  unfold EndsIn at h
  cases hchange : change sim.state with
  | ok value state =>
    rw [hchange] at h
    exact .of_ok (by rw [onState, hchange]) h
  | error error state =>
    rw [hchange] at h
    exact .of_error (by rw [onState, hchange]) h

/-- Wherever `inv` holds, the program is refused only as expected, and `inv` still holds after it
is carried out.  What is drawn does not matter. -/
def Keeps (inv : σ → Prop) (program : SimulationM σ α) : Prop :=
  ∀ sim : Simulation σ, inv sim.state →
    EndsIn Expected program sim fun _ sim' => inv sim'.state

namespace Keeps

variable {inv : σ → Prop}

theorem pure (value : α) : Keeps inv (Pure.pure value) :=
  fun _ h => EndsIn.pure h

theorem bind {program : SimulationM σ α} {next : α → SimulationM σ β} (h : Keeps inv program)
    (hnext : ∀ value, Keeps inv (next value)) : Keeps inv (program >>= next) := by
  intro sim hsim
  exact (h sim hsim).bind fun value between hbetween => hnext value between hbetween

/-- A program that goes on from a look at the state may rely on what it has seen. -/
theorem get_bind {next : Simulation σ → SimulationM σ α}
    (h : ∀ sim : Simulation σ, inv sim.state → Keeps inv (next sim)) :
    Keeps inv (get >>= next) :=
  fun sim hsim => h sim hsim sim hsim

theorem onState {change : EStateM EngineError σ α}
    (h : ∀ state, inv state → EndsIn Expected change state fun _ => inv) :
    Keeps inv (Simulation.onState change) :=
  fun sim hsim => endsIn_onState (h sim.state hsim)

theorem sample (next : Generator → α × Generator) : Keeps inv (Simulation.sample next) :=
  fun _ hsim => .of_ok rfl hsim

/-- What goes on from a draw may rely on the value that some generator has made. -/
theorem sample_bind {next : Generator → α × Generator} {rest : α → SimulationM σ β}
    (h : ∀ generator, Keeps inv (rest (next generator).1)) :
    Keeps inv (Simulation.sample next >>= rest) :=
  fun sim hsim => h sim.generator ⟨sim.state, (next sim.generator).2⟩ hsim

theorem look {view : σ → α × σ} (h : ∀ state, inv state → inv (view state).2) :
    Keeps inv (Simulation.look view) :=
  fun sim hsim => .of_ok rfl (h sim.state hsim)

theorem forM {program : α → SimulationM σ PUnit} {xs : List α}
    (h : ∀ x ∈ xs, Keeps inv (program x)) : Keeps inv (xs.forM program) := by
  induction xs with
  | nil => exact pure PUnit.unit
  | cons x xs ih =>
    refine (h x List.mem_cons_self).bind fun _ => ?_
    exact ih fun x' hx' => h x' (List.mem_cons_of_mem x hx')

theorem foldlM {program : β → α → SimulationM σ β} {xs : List α}
    (h : ∀ value, ∀ x ∈ xs, Keeps inv (program value x)) (init : β) :
    Keeps inv (xs.foldlM program init) := by
  induction xs generalizing init with
  | nil => exact pure init
  | cons x xs ih =>
    refine (h init x List.mem_cons_self).bind fun value => ?_
    exact ih (fun value x' hx' => h value x' (List.mem_cons_of_mem x hx')) value

end Keeps

end Simulation
end Workload

end SpriteField
