import SpriteField.Error
import SpriteField.Generator

/-!
# Changes driven by drawn numbers

A workload draws numbers in one fixed order while it changes an index or an atlas.  What it changes
and what it draws from are kept side by side, and a refused change ends the run.
-/

namespace SpriteField.Workload

/-- Something that changes and the numbers drawn for it. -/
structure Simulation (σ : Type) where
  state : σ
  generator : Generator

abbrev SimulationM (σ : Type) := EStateM EngineError (Simulation σ)

namespace Simulation

def onState (change : EStateM EngineError σ α) : SimulationM σ α := fun ⟨state, generator⟩ =>
  match change state with
  | .ok value state => .ok value ⟨state, generator⟩
  | .error error state => .error error ⟨state, generator⟩

def sample (next : Generator → α × Generator) : SimulationM σ α := fun ⟨state, generator⟩ =>
  let (value, generator) := next generator
  .ok value ⟨state, generator⟩

/-- Looks into the state in a way that may count as an event. -/
def look (view : σ → α × σ) : SimulationM σ α := fun ⟨state, generator⟩ =>
  let (value, state) := view state
  .ok value ⟨state, generator⟩

end Simulation

end SpriteField.Workload
