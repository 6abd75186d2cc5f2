import SpriteField.TagSet
import SpriteField.Vertex

/-!
# Entities

An entity is a collider, by which it is found, and a sprite, by which it is drawn.  A query asks for
the entities that collide with a rectangle and carry every required tag.
-/

namespace SpriteField

structure Collider where
  id : Nat
  bounds : Rect
  tags : TagSet
deriving DecidableEq, Inhabited

/-- A collider without area and without tags. -/
def Collider.blank (id : Nat) : Collider :=
  ⟨id, .zero, .empty⟩

structure Sprite where
  /-- The drawn part of the texture, in texels. -/
  texture : Rect
  color : Color
  depth : Binary32
  transform : Transform
deriving DecidableEq

def Sprite.plain : Sprite :=
  ⟨.zero, .white, .zero, .identity⟩

instance : Inhabited Sprite where
  default := .plain

structure Entity where
  collider : Collider
  sprite : Sprite
deriving DecidableEq, Inhabited

namespace Entity

def id (entity : Entity) : Nat :=
  entity.collider.id

def blank (id : Nat) : Entity :=
  ⟨.blank id, .plain⟩

def quad (entity : Entity) : Quad :=
  (Quad.ofRect entity.collider.bounds entity.sprite.texture entity.sprite.color
    entity.sprite.depth).transformed entity.sprite.transform

/-- The point `(x, y)` of the entity as it is drawn, with the place `(u, v)` of the texture.  Each
coordinate of its position is a row of the transform times `(x, y, depth, 1)`. -/
def corner (entity : Entity) (x y u v : Binary32) : Vertex :=
  let z := entity.sprite.depth
  let t := entity.sprite.transform
  { position :=
      { x := t.x.x * x + t.y.x * y + t.z.x * z + t.w.x * .one
        y := t.x.y * x + t.y.y * y + t.z.y * z + t.w.y * .one
        z := t.x.z * x + t.y.z * y + t.z.z * z + t.w.z * .one
        w := t.x.w * x + t.y.w * y + t.z.w * z + t.w.w * .one }
    color := entity.sprite.color
    u, v }

/-- What the entity looks like: the corners of two triangles, which are corners of its bounds, each
with the same corner of its part of the texture. -/
def appearance (entity : Entity) : List Vertex :=
  let b := entity.collider.bounds
  let t := entity.sprite.texture
  [entity.corner b.x1 b.y1 t.x1 t.y1,
    entity.corner b.x2 b.y1 t.x2 t.y1,
    entity.corner b.x1 b.y2 t.x1 t.y2,
    entity.corner b.x2 b.y1 t.x2 t.y1,
    entity.corner b.x2 b.y2 t.x2 t.y2,
    entity.corner b.x1 b.y2 t.x1 t.y2]

theorem toList_quad (entity : Entity) : entity.quad.toList = entity.appearance := by
  rw [quad, Quad.toList_transformed, Quad.toList_ofRect]
  simp only [List.map_cons, List.map_nil, Vertex.transformed_eq, Transform.apply_eq, appearance,
    corner]

end Entity

structure Query where
  bounds : Rect
  tags : TagSet
  /-- The one entity that is left out. -/
  excluded : Option Nat
deriving DecidableEq, Inhabited

def Query.accepts (query : Query) (id : Nat) (bounds : Rect) (tags : TagSet) : Bool :=
  query.excluded != some id && query.bounds.collides bounds && tags.containsAll query.tags

end SpriteField
