import SpriteField.Grid
import SpriteField.Json.Value

/-!
# Configuration

The chunk grid of the entity index and the largest size of the atlas.  A configuration is read from
a JSON document in which every field is optional, and written back with two spaces of indentation
for each level.

The atlas keeps to sizes below `2 ^ 24` on both axes, up to which binary32 holds every whole number.
-/

namespace SpriteField

/-- Every whole number up to this one is a binary32 number. -/
def exactWholeMax : Nat := 1 <<< 24

structure AtlasLimits where
  maxWidth : Nat
  maxHeight : Nat
deriving DecidableEq

namespace AtlasLimits

def standard : AtlasLimits := ⟨4096, 16384⟩

instance : Inhabited AtlasLimits where
  default := standard

def validate (l : AtlasLimits) : Except EngineError Unit :=
  if l.maxWidth = 0 ∨ l.maxHeight = 0 then
    throw (.invalidConfig (.atlasEmpty l.maxWidth l.maxHeight))
  else if exactWholeMax < l.maxWidth ∨ exactWholeMax < l.maxHeight then
    throw (.invalidConfig (.atlasTooLarge exactWholeMax l.maxWidth l.maxHeight))
  else return

end AtlasLimits

structure EngineConfig where
  grid : Grid
  atlas : AtlasLimits
deriving DecidableEq, Inhabited

namespace EngineConfig

def standard : EngineConfig := ⟨.standard, .standard⟩

def validate (c : EngineConfig) : Except EngineError Unit := do
  c.grid.validate
  c.atlas.validate

/-- A field's number, or its default if the field is missing. -/
def field? (default : Nat) : Option Json.Value → Option Nat
  | none => some default
  | some value => value.word?

def grid? (value : Json.Value) : Option Grid :=
  match value.record? ["chunk_width_bits", "grid_bits"] with
  | some [width, bits] => do
    return ⟨← field? Grid.standard.chunkWidthBits width, ← field? Grid.standard.gridBits bits⟩
  | _ => none

def atlas? (value : Json.Value) : Option AtlasLimits :=
  match value.record? ["max_width", "max_height"] with
  | some [width, height] => do
    return ⟨← field? AtlasLimits.standard.maxWidth width,
      ← field? AtlasLimits.standard.maxHeight height⟩
  | _ => none

def ofValue? (value : Json.Value) : Option EngineConfig :=
  match value.record? ["entity_index", "atlas"] with
  | some [grid, atlas] => do
    return ⟨← grid.elim (some .standard) grid?, ← atlas.elim (some .standard) atlas?⟩
  | _ => none

def ofText (text : String) : Except EngineError EngineConfig := do
  match (Json.Value.ofText? text).bind ofValue? with
  | some config =>
    config.validate
    return config
  | none => throw (.invalidConfig .malformed)

/-- Reads the contents of a file, or `none` if there is no such file. -/
def ofFile : Option ByteArray → Except EngineError EngineConfig
  | some bytes =>
    match String.fromUTF8? bytes with
    | some text => ofText text
    | none => throw (.invalidConfig .unreadable)
  | none => throw (.invalidConfig .unreadable)

def text (c : EngineConfig) : String :=
  "\n".intercalate [
    "\x7b",
    "  \"entity_index\": \x7b",
    s!"    \"chunk_width_bits\": {c.grid.chunkWidthBits},",
    s!"    \"grid_bits\": {c.grid.gridBits}",
    "  \x7d,",
    "  \"atlas\": \x7b",
    s!"    \"max_width\": {c.atlas.maxWidth},",
    s!"    \"max_height\": {c.atlas.maxHeight}",
    "  \x7d",
    "\x7d"]

end EngineConfig

end SpriteField
