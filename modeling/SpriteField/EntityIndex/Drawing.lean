import SpriteField.EntityIndex.Basic

/-!
# Drawing the entity index

Entities with area are drawn from back to front: by ascending depth, in the total order of all
binary32 words, and in slot order at equal depth.  The list of all vertices is kept until the next
change.
-/

namespace SpriteField.EntityIndex

/-- An entity's quad, if it is known and has area. -/
def quad? (ix : EntityIndex) (id : Nat) : Option Quad := do
  let s ← ix.slot? id
  if s.isDrawable then some s.quad else none

/-- The slots that are drawn, from back to front. -/
def drawOrder (ix : EntityIndex) : List Slot :=
  (ix.slots.toList.filter (·.isDrawable)).mergeSort fun a b =>
    a.entity.sprite.depth.totalKey ≤ b.entity.sprite.depth.totalKey

/-- Adds the quads of all slots that are drawn behind `out`. -/
def appendVertices (ix : EntityIndex) (out : Array Vertex) : Array Vertex :=
  ix.drawOrder.foldl (fun out s => out ++ s.quad.toArray) out

/-- Draws all entities again if something has changed since the last time. -/
def redraw (ix : EntityIndex) : EntityIndex :=
  if ix.stale then { ix with drawn := ix.appendVertices #[], stale := false } else ix

def allVertices (ix : EntityIndex) : Array Vertex × EntityIndex :=
  let ix := ix.redraw
  (ix.drawn, ix)

end SpriteField.EntityIndex
