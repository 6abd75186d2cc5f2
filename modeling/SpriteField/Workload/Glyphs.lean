import SpriteField.TextureAtlas
import SpriteField.Workload.Simulation
import SpriteField.Workload.Settings

/-!
# A churning glyph cache

Glyphs of random sizes are packed into an atlas, and in later rounds some of them are given up or
packed again.  The regions that are left must not overlap.
-/

namespace SpriteField.Workload

open Simulation

structure CountingTexture where
  uploads : Nat
deriving DecidableEq, Inhabited

instance : TextureBackend CountingTexture where
  upload width height pixels := do
    if pixels.size = width * height then modify fun t => ⟨t.uploads + 1⟩
    else throw (.uploadFailed s!"{pixels.size} pixels for {width}x{height} texture")

/-- All glyphs are cut from this bitmap, 32 pixels wide and high. -/
def bitmap : Array Color :=
  Array.replicate (32 * 32) .white

/-- One glyph in one round.  From the second round on two in three are left alone, and every fifth
of the others is given up. -/
def packGlyph (round glyph : Nat) : SimulationM (TextureAtlas CountingTexture) Unit := do
  let choice ← if round = 0 then pure 0 else sample (·.below 3)
  if choice != 0 then pure ()
  else if 0 < round ∧ glyph % 5 = 0 then onState (TextureAtlas.resetRegion glyph)
  else
    let width ← sample (·.below 28)
    let height ← sample (·.below 24)
    onState (TextureAtlas.setRegion glyph (4 + width) (8 + height) bitmap 32)

def packGlyphs (s : Settings) : SimulationM (TextureAtlas CountingTexture) Unit :=
  (List.range 4).forM fun round => do
    (List.range s.glyphs).forM (packGlyph round)
    let _ ← onState TextureAtlas.flush

def firstOverlap? : List Rect → Option Rect
  | [] => none
  | r :: rest => if rest.any r.collides then some r else firstOverlap? rest

end SpriteField.Workload
