import SpriteField.Error

/-!
# The chunk grid

The plane is cut into square chunks with edges of `2 ^ chunkWidthBits` world units.  The grid has
`2 ^ gridBits` chunks on each axis and wraps around, so chunks that lie a whole number of grids
apart share one id.

A rectangle covers a span: on each axis a run of chunks that starts at its first one.  A run is cut
off where it would come round to its start again, so a span never yields an id twice.
-/

namespace SpriteField

structure Grid where
  chunkWidthBits : Nat
  gridBits : Nat
deriving DecidableEq

namespace Grid

/-- Chunks of 32 units, 256 on each axis. -/
def standard : Grid := ⟨5, 8⟩

instance : Inhabited Grid where
  default := standard

def maxGridBits : Nat := 12

def maxChunkWidthBits : Nat := 16

def validate (g : Grid) : Except EngineError Unit :=
  if g.gridBits = 0 ∨ maxGridBits < g.gridBits then
    throw (.invalidConfig (.gridBits maxGridBits g.gridBits))
  else if maxChunkWidthBits < g.chunkWidthBits then
    throw (.invalidConfig (.chunkWidthBits maxChunkWidthBits g.chunkWidthBits))
  else return

def size (g : Grid) : Nat :=
  1 <<< g.gridBits

/-- The chunk, on an endless axis, that holds the unit `n`. -/
def chunkOf (g : Grid) (n : Int) : Int :=
  n >>> g.chunkWidthBits

/-- The place on the grid of a chunk on the endless axis. -/
def wrap (g : Grid) (chunk : Int) : Nat :=
  (chunk % (g.size : Int)).toNat

/-- Column and row packed into one 32-bit id, the column in the low bits. -/
def chunkId (g : Grid) (column row : Nat) : Nat :=
  (column + row * g.size) % 0x100000000

def chunkAt (g : Grid) (x y : Binary32) : Nat :=
  g.chunkId (g.wrap (g.chunkOf x.floor)) (g.wrap (g.chunkOf y.floor))

end Grid

/-- `count` chunks in a row, the first of them `first`. -/
structure Run where
  first : Int
  count : Nat
deriving DecidableEq, Inhabited

namespace Run

/-- The chunks that `[low, high)` overlaps.  The last one holds the last unit before `high`. -/
def ofInterval (g : Grid) (low high : Binary32) : Run :=
  let first := g.chunkOf low.floor
  let last := g.chunkOf (max (high.ceil - 1) (-0x8000000000000000))
  ⟨first, min (max (last - first + 1) 1).toNat g.size⟩

def places (g : Grid) (run : Run) : List Nat :=
  (List.range run.count).map fun (k : Nat) => g.wrap (run.first + k)

def covers (g : Grid) (run : Run) (place : Nat) : Bool :=
  g.wrap (place - run.first) < run.count

end Run

structure Span where
  grid : Grid
  columns : Run
  rows : Run
deriving DecidableEq, Inhabited

namespace Span

/-- The chunks that a rectangle overlaps; without area it overlaps none. -/
def ofRect (g : Grid) (bounds : Rect) : Span :=
  if bounds.hasArea then
    ⟨g, .ofInterval g bounds.x1 bounds.x2, .ofInterval g bounds.y1 bounds.y2⟩
  else ⟨g, ⟨0, 0⟩, ⟨0, 0⟩⟩

def size (s : Span) : Nat :=
  s.columns.count * s.rows.count

def isEmpty (s : Span) : Bool :=
  s.size = 0

/-- Chunk ids, row by row. -/
def ids (s : Span) : List Nat :=
  let columns := s.columns.places s.grid
  (s.rows.places s.grid).flatMap fun row => columns.map fun column => s.grid.chunkId column row

def contains (s : Span) (id : Nat) : Bool :=
  s.columns.covers s.grid (id % s.grid.size) && s.rows.covers s.grid (id / s.grid.size % s.grid.size)

end Span

end SpriteField
