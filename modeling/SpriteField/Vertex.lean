import SpriteField.Rect
import SpriteField.Color

/-!
# Vertices and quads

A rectangle is drawn as two triangles.  A transform is a matrix of four columns, applied to a
position by adding the scaled columns from the first to the last.
-/

namespace SpriteField

structure Vec4 where
  x : Binary32
  y : Binary32
  z : Binary32
  w : Binary32
deriving DecidableEq, Inhabited

namespace Vec4

instance : Add Vec4 where
  add a b := ⟨a.x + b.x, a.y + b.y, a.z + b.z, a.w + b.w⟩

def scale (a : Vec4) (factor : Binary32) : Vec4 :=
  ⟨a.x * factor, a.y * factor, a.z * factor, a.w * factor⟩

def isFinite (a : Vec4) : Bool :=
  a.x.isFinite && a.y.isFinite && a.z.isFinite && a.w.isFinite

end Vec4

/-- A four by four matrix, by columns. -/
structure Transform where
  x : Vec4
  y : Vec4
  z : Vec4
  w : Vec4
deriving DecidableEq, Inhabited

namespace Transform

def identity : Transform :=
  ⟨⟨.one, .zero, .zero, .zero⟩, ⟨.zero, .one, .zero, .zero⟩, ⟨.zero, .zero, .one, .zero⟩,
    ⟨.zero, .zero, .zero, .one⟩⟩

def isFinite (t : Transform) : Bool :=
  t.x.isFinite && t.y.isFinite && t.z.isFinite && t.w.isFinite

def apply (t : Transform) (p : Vec4) : Vec4 :=
  t.x.scale p.x + t.y.scale p.y + t.z.scale p.z + t.w.scale p.w

/-- A row of the matrix times the position gives each coordinate. -/
theorem apply_eq (t : Transform) (p : Vec4) : t.apply p =
    ⟨t.x.x * p.x + t.y.x * p.y + t.z.x * p.z + t.w.x * p.w,
      t.x.y * p.x + t.y.y * p.y + t.z.y * p.z + t.w.y * p.w,
      t.x.z * p.x + t.y.z * p.y + t.z.z * p.z + t.w.z * p.w,
      t.x.w * p.x + t.y.w * p.y + t.z.w * p.z + t.w.w * p.w⟩ := rfl

end Transform

/-- A homogeneous position, a color and a texture coordinate. -/
structure Vertex where
  position : Vec4
  color : Color
  u : Binary32
  v : Binary32
deriving DecidableEq, Inhabited

namespace Vertex

def ofPoint (x y z : Binary32) (color : Color) (u v : Binary32) : Vertex :=
  ⟨⟨x, y, z, .one⟩, color, u, v⟩

def transformed (vertex : Vertex) (t : Transform) : Vertex :=
  ⟨t.apply vertex.position, vertex.color, vertex.u, vertex.v⟩

/-- The position is transformed, and the color and the texture coordinate are kept. -/
theorem transformed_eq (vertex : Vertex) (t : Transform) :
    vertex.transformed t = { vertex with position := t.apply vertex.position } := rfl

def depth (vertex : Vertex) : Binary32 :=
  vertex.position.z

end Vertex

def quadSize : Nat := 6

abbrev Quad := Vector Vertex quadSize

namespace Quad

/-- Covers `bounds` at depth `z` with the texels of `texture`.  The triangles run
`(x1, y1) (x2, y1) (x1, y2)` and `(x2, y1) (x2, y2) (x1, y2)`. -/
def ofRect (bounds texture : Rect) (color : Color) (z : Binary32) : Quad :=
  let topLeft := Vertex.ofPoint bounds.x1 bounds.y1 z color texture.x1 texture.y1
  let topRight := Vertex.ofPoint bounds.x2 bounds.y1 z color texture.x2 texture.y1
  let bottomLeft := Vertex.ofPoint bounds.x1 bounds.y2 z color texture.x1 texture.y2
  let bottomRight := Vertex.ofPoint bounds.x2 bounds.y2 z color texture.x2 texture.y2
  #v[topLeft, topRight, bottomLeft, topRight, bottomRight, bottomLeft]

/-- The six corners of `bounds`, each with the same corner of `texture`. -/
theorem toList_ofRect (bounds texture : Rect) (color : Color) (z : Binary32) :
    (ofRect bounds texture color z).toList =
      [⟨⟨bounds.x1, bounds.y1, z, .one⟩, color, texture.x1, texture.y1⟩,
        ⟨⟨bounds.x2, bounds.y1, z, .one⟩, color, texture.x2, texture.y1⟩,
        ⟨⟨bounds.x1, bounds.y2, z, .one⟩, color, texture.x1, texture.y2⟩,
        ⟨⟨bounds.x2, bounds.y1, z, .one⟩, color, texture.x2, texture.y1⟩,
        ⟨⟨bounds.x2, bounds.y2, z, .one⟩, color, texture.x2, texture.y2⟩,
        ⟨⟨bounds.x1, bounds.y2, z, .one⟩, color, texture.x1, texture.y2⟩] := rfl

def transformed (quad : Quad) (t : Transform) : Quad :=
  quad.map (·.transformed t)

theorem toList_transformed (quad : Quad) (t : Transform) :
    (quad.transformed t).toList = quad.toList.map (·.transformed t) :=
  Vector.toList_map

end Quad

end SpriteField
