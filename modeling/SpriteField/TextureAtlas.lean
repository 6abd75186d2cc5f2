import SpriteField.Atlas.Packing

/-!
# The atlas and its texture

A texture shows the image of an atlas as of the last upload.  Packing a region makes the texture
stale; freeing one does not, because every pixel stays as it is.
-/

namespace SpriteField

class TextureBackend (τ : Type) where
  upload : (width height : Nat) → (pixels : Array Color) → EStateM EngineError τ Unit

structure TextureAtlas (τ : Type) where
  atlas : Atlas
  texture : τ
  /-- The texture does not show the image. -/
  stale : Bool

/-- A change of the atlas or its texture that can be refused.  The state after a refusal is kept. -/
abbrev TextureM (τ : Type) := EStateM EngineError (TextureAtlas τ)

namespace TextureAtlas

/-- The image of a new atlas has not been uploaded yet. -/
def ofAtlas (texture : τ) (atlas : Atlas) : TextureAtlas τ :=
  ⟨atlas, texture, true⟩

def new (texture : τ) (limits : AtlasLimits) : Except EngineError (TextureAtlas τ) := do
  return ofAtlas texture (← Atlas.new limits)

def onAtlas (change : AtlasM α) : TextureM τ α := fun ⟨atlas, texture, stale⟩ =>
  match change atlas with
  | .ok value atlas => .ok value ⟨atlas, texture, stale⟩
  | .error error atlas => .error error ⟨atlas, texture, stale⟩

def onTexture (change : EStateM EngineError τ α) : TextureM τ α := fun ⟨atlas, texture, stale⟩ =>
  match change texture with
  | .ok value texture => .ok value ⟨atlas, texture, stale⟩
  | .error error texture => .error error ⟨atlas, texture, stale⟩

def setRegion (id width height : Nat) (pixels : Array Color) (stride : Nat) : TextureM τ Unit := do
  onAtlas (Atlas.setRegion id width height pixels stride)
  modify ({ · with stale := true })

def resetRegion (id : Nat) : TextureM τ Unit :=
  onAtlas (Atlas.resetRegion id)

/-- Uploads the image if the texture does not show it; answers whether it did. -/
def flush [TextureBackend τ] : TextureM τ Bool := do
  let ⟨atlas, _, stale⟩ ← get
  if stale then
    onTexture (TextureBackend.upload atlas.image.width atlas.image.height atlas.image.pixels)
    modify ({ · with stale := false })
    return true
  else return false

/-- The place of a region as a part of the whole texture, whose sides have length one. -/
def regionUV? (t : TextureAtlas τ) (id : Nat) : Option Rect := do
  let r ← t.atlas.region? id
  let width := Binary32.ofNat t.atlas.image.width
  let height := Binary32.ofNat t.atlas.image.height
  return ⟨r.x1 / width, r.y1 / height, r.x2 / width, r.y2 / height⟩

end TextureAtlas

/-- A texture that remembers its uploads, the last one first, and can be told to refuse them. -/
structure RecordingTexture where
  failing : Bool
  uploads : List (Nat × Nat × Array Color)
deriving Inhabited

namespace RecordingTexture

def new : RecordingTexture := ⟨false, []⟩

instance : TextureBackend RecordingTexture where
  upload width height pixels := do
    if (← get).failing then throw (.uploadFailed "device lost")
    else modify fun t => { t with uploads := (width, height, pixels) :: t.uploads }

end RecordingTexture

end SpriteField
