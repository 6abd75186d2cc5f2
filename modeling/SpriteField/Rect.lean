import SpriteField.Binary32.Arithmetic
import SpriteField.Binary32.Whole
import SpriteField.Binary32.Decimal

/-!
# Rectangles

A rectangle spans `[x1, x2) × [y1, y2)`.  A valid one has finite, ordered corners.  A rectangle
without area is valid, but it holds no point and so collides with nothing, itself included.
-/

namespace SpriteField

structure Rect where
  x1 : Binary32
  y1 : Binary32
  x2 : Binary32
  y2 : Binary32
deriving DecidableEq, Inhabited

namespace Rect

def zero : Rect := ⟨.zero, .zero, .zero, .zero⟩

/-- The rectangle with the given corner and extent. -/
def ofSize (x y width height : Binary32) : Rect :=
  ⟨x, y, x + width, y + height⟩

def isValid (r : Rect) : Bool :=
  r.x1.isFinite && r.y1.isFinite && r.x2.isFinite && r.y2.isFinite && r.x1 ≤ r.x2 && r.y1 ≤ r.y2

/-- Every coordinate is a whole number. -/
def isWhole (r : Rect) : Bool :=
  r.x1.isWhole && r.y1.isWhole && r.x2.isWhole && r.y2.isWhole

def width (r : Rect) : Binary32 := r.x2 - r.x1

def height (r : Rect) : Binary32 := r.y2 - r.y1

def area (r : Rect) : Binary32 := r.width * r.height

def hasArea (r : Rect) : Bool :=
  r.x1 < r.x2 && r.y1 < r.y2

/-- The two rectangles have a point in common; touching edges are not enough. -/
def collides (a b : Rect) : Bool :=
  a.hasArea && b.hasArea && a.x1 < b.x2 && b.x1 < a.x2 && a.y1 < b.y2 && b.y1 < a.y2

/-- The inner rectangle stays within the outer one; shared edges are allowed. -/
def contains (outer inner : Rect) : Bool :=
  outer.x1 ≤ inner.x1 && outer.y1 ≤ inner.y1 && inner.x2 ≤ outer.x2 && inner.y2 ≤ outer.y2

def collapsed (r : Rect) : Rect :=
  ⟨r.x1, r.y1, r.x1, r.y1⟩

def numericEq (a b : Rect) : Bool :=
  a.x1.numericEq b.x1 && a.y1.numericEq b.y1 && a.x2.numericEq b.x2 && a.y2.numericEq b.y2

def text (r : Rect) : String :=
  s!"[{r.x1}, {r.y1}, {r.x2}, {r.y2}]"

instance : ToString Rect where
  toString := text

end Rect

end SpriteField
