import SpriteField.EntityIndex.Consistency
import SpriteField.Workload.Field
import SpriteField.Workload.Glyphs

/-!
# Running a workload

First the field over all frames, then the glyphs.  A run ends with a report, or with the first thing
that is refused or found broken.
-/

namespace SpriteField.Workload

/-- The result of a run, where a refusal ends it. -/
def outcome : EStateM.Result EngineError σ α → Except Failure (α × σ)
  | .ok value state => .ok (value, state)
  | .error error _ => .error (.engine error)

/-- Fills the field and goes through all frames; the index must be sound afterwards. -/
def runField (grid : Grid) (s : Settings) : Except Failure (Tally × Simulation EntityIndex) := do
  let index ← (EntityIndex.new grid).mapError .engine
  let (_, field) ← outcome (populate s ⟨index, .ofSeed s.seed⟩)
  let entities := field.state.size
  if entities = s.total then
    let (tally, field) ← outcome ((List.range s.frames).foldlM (frame s entities) default field)
    field.state.check.mapError .engine
    return (tally, field)
  else throw (.entityCount entities)

/-- Packs the glyphs of all rounds; no two regions may overlap afterwards. -/
def runGlyphs (limits : AtlasLimits) (s : Settings) (generator : Generator) :
    Except Failure (TextureAtlas CountingTexture) := do
  let texture ← (TextureAtlas.new (⟨0⟩ : CountingTexture) limits).mapError .engine
  let (_, glyphs) ← outcome (packGlyphs s ⟨texture, generator⟩)
  match firstOverlap? (glyphs.state.atlas.liveRegions.map (·.2)) with
  | some region => throw (.overlap region)
  | none => return glyphs.state

def run (config : EngineConfig) (s : Settings) : Except Failure Report := do
  let (tally, field) ← runField config.grid s
  let texture ← runGlyphs config.atlas s field.generator
  return {
    entities := field.state.size
    vertices := tally.vertices
    smallSearchHits := tally.small
    largeSearchHits := tally.large
    atlasWidth := texture.atlas.image.width
    atlasHeight := texture.atlas.image.height
    atlasUploads := texture.texture.uploads
    indexCounters := field.state.counters
    atlasCounters := texture.atlas.counters }

end SpriteField.Workload
