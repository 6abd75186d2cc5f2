import SpriteField.Binary32.Arithmetic

/-!
# Deterministic random numbers

A linear congruential generator: each draw replaces the state `x` by `1664525 * x + 1013904223`
modulo `2 ^ 32` and answers the new state.  The same seed gives the same draws everywhere.
-/

namespace SpriteField

structure Generator where
  seed : UInt64
  state : UInt64
deriving DecidableEq, Inhabited

namespace Generator

def ofSeed (seed : UInt64) : Generator :=
  ⟨seed, seed⟩

def nextState (state : UInt64) : UInt64 :=
  (1664525 * state + 1013904223) % 0x100000000

def next (g : Generator) : UInt32 × Generator :=
  let state := nextState g.state
  (state.toUInt32, ⟨g.seed, state⟩)

/-- The fraction made of the upper twenty-four bits, at least zero and below one. -/
def unitFraction (word : UInt32) : Binary32 :=
  .ofFraction (word >>> 8).toNat 24

def nextFraction (g : Generator) : Binary32 × Generator :=
  let (word, g) := g.next
  (unitFraction word, g)

/-- A draw from the numbers below `bound`, taken from the well-mixed upper bits. -/
def below (g : Generator) (bound : Nat) : Nat × Generator :=
  let (word, g) := g.next
  ((word.toNat * bound) >>> 32, g)

/-- A draw from the interval that starts at `low` and is meant to end before `high`; the sum is
rounded, though, and may come out as `high`. -/
def range (g : Generator) (low high : Binary32) : Binary32 × Generator :=
  let (fraction, g) := g.nextFraction
  (low + (high - low) * fraction, g)

/-- Swaps each of the positions `i`, ..., `1` with a drawn position that is not above it. -/
def shuffleFrom : (i : Nat) → Generator → Array α → Array α × Generator
  | 0, g, items => (items, g)
  | i + 1, g, items =>
    let (j, g) := g.below (i + 2)
    shuffleFrom i g (items.swapIfInBounds (i + 1) j)

def shuffle (g : Generator) (items : Array α) : Array α × Generator :=
  shuffleFrom (items.size - 1) g items

end Generator

end SpriteField
