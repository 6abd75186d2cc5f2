import SpriteField.EntityIndex.Drawing
import SpriteField.EntityIndex.Search
import SpriteField.EntityIndex.Update
import SpriteField.Workload.Simulation
import SpriteField.Workload.Settings

/-!
# A field of moving entities

A square field of entities, some of which move in every frame, is searched and drawn frame by frame.
-/

namespace SpriteField.Workload

open Simulation

def movingTag : Nat := 0

def rareTag : Nat := 7

def fieldEntity (s : Settings) (row column extra : Nat) : Entity :=
  let id := row * s.gridSide + column
  let size := Binary32.ofNat 4 + .ofNat extra
  let tags := if id % 32 = 0 then [movingTag, rareTag] else [movingTag]
  { collider :=
      ⟨id, .ofSize (.ofNat column * s.spacing) (.ofNat row * s.spacing) size size, .ofList tags⟩
    sprite :=
      { Sprite.plain with
        texture := ⟨.zero, .zero, .one, .one⟩
        depth := .ofNat (id % 4) } }

def populate (s : Settings) : SimulationM EntityIndex Unit :=
  (List.range s.gridSide).forM fun row =>
    (List.range s.gridSide).forM fun column => do
      let extra ← sample (·.below 12)
      onState (EntityIndex.set (fieldEntity s row column extra))

/-- The entities that move in a frame: every one whose id leaves the remainder of the frame. -/
def movers (s : Settings) (frame : Nat) : List Nat :=
  let phase := frame % s.stride
  (List.range ((s.total - phase + s.stride - 1) / s.stride)).map fun k => phase + k * s.stride

/-- A whole number of units between minus six and six. -/
def sampleStep : SimulationM σ Binary32 := do
  let distance ← sample (·.range (-.ofNat 6) (.ofNat 6))
  return distance.round

def move (id : Nat) : SimulationM EntityIndex Unit := do
  match (← get).state.get? id with
  | none => pure ()
  | some entity =>
    let b := entity.collider.bounds
    let dx ← sampleStep
    let dy ← sampleStep
    onState (EntityIndex.setBounds id ⟨b.x1 + dx, b.y1 + dy, b.x2 + dx, b.y2 + dy⟩)

/-- The rectangle that reaches 32 units farther on every side. -/
def around (b : Rect) : Rect :=
  let reach := Binary32.ofNat 32
  ⟨b.x1 - reach, b.y1 - reach, b.x2 + reach, b.y2 + reach⟩

/-- Number of ids that a search with room for `room` of them finds. -/
def hits (query : Query) (room : Nat) : SimulationM EntityIndex Nat :=
  look fun ix =>
    let ((count, _), ix) := ix.search query (Array.replicate room 0)
    (count, ix)

structure Tally where
  vertices : Nat
  small : Nat
  large : Nat
deriving DecidableEq, Inhabited

/-- One frame: some entities move, the neighbourhood of one entity is searched, then the rare
entities in a quarter of the field, and everything is drawn. -/
def frame (s : Settings) (room : Nat) (tally : Tally) (number : Nat) :
    SimulationM EntityIndex Tally := do
  (movers s number).forM move
  let subject ← sample (·.below room)
  let small ←
    match (← get).state.get? subject with
    | some entity => hits ⟨around entity.collider.bounds, .empty, some subject⟩ room
    | none => pure 0
  let half := s.world * .ofFraction 1 1
  let x ← sample (·.range .zero half)
  let y ← sample (·.range .zero half)
  let large ← hits ⟨.ofSize x y half half, .ofList [rareTag], none⟩ room
  let vertices ← look fun ix =>
    let (vertices, ix) := ix.allVertices
    (vertices.size, ix)
  return ⟨vertices, tally.small + small, tally.large + large⟩

end SpriteField.Workload
