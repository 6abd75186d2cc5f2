import SpriteField.Bucket
import SpriteField.Image
import SpriteField.Rect
import SpriteField.TagSet

/-!
# Errors of the engine

One constructor for each cause, and one function that words them all.
-/

namespace SpriteField

/-- Membership record: a bucket that an entity is in, and the position there. -/
structure BackRef where
  bucket : Nat
  position : Nat
deriving DecidableEq, Inhabited

instance : ToString BackRef where
  toString ref := s!"BackRef \x7b bucket: {ref.bucket}, position: {ref.position} \x7d"

inductive SpriteFault where
  | depth
  | texture
  | transform
deriving DecidableEq, Inhabited

def SpriteFault.message : SpriteFault → String
  | .depth => "depth is not finite"
  | .texture => "texture bounds must be valid whole texel coordinates"
  | .transform => "transform is not finite"

inductive ConfigFault where
  | gridBits (max bits : Nat)
  | chunkWidthBits (max bits : Nat)
  | atlasEmpty (width height : Nat)
  | atlasTooLarge (max width height : Nat)
  | malformed
  | unreadable
deriving DecidableEq, Inhabited

def ConfigFault.message : ConfigFault → String
  | .gridBits max bits => s!"entity_index.grid_bits must be in 1..={max}, got {bits}"
  | .chunkWidthBits max bits => s!"entity_index.chunk_width_bits must be <= {max}, got {bits}"
  | .atlasEmpty width height => s!"atlas max size must be non-zero, got {width}x{height}"
  | .atlasTooLarge max width height =>
    s!"atlas max size must be <= {max} per axis, got {width}x{height}"
  | .malformed => "not a configuration document"
  | .unreadable => "the file cannot be read as text"

inductive ConsistencyFault where
  | staleChunkRef (slot : Nat) (ref : BackRef)
  | staleTagRef (slot : Nat) (ref : BackRef)
  | emptyChunk (chunk : Nat)
  | entryCounts (chunkEntries tagEntries chunkRefs tagRefs : Nat)
  | missingChunk (slot chunk : Nat)
  | missingTag (slot tag : Nat)
  | chunkPosition (chunk : Nat) (error : BucketError)
  | tagPosition (tag : Nat) (error : BucketError)
  | missingBackRef (bucket position : Nat)
  | vanishedChunk (chunk : Nat)
  | image (error : ImageError)
deriving DecidableEq, Inhabited

def ConsistencyFault.message : ConsistencyFault → String
  | .staleChunkRef slot ref => s!"slot {slot} chunk back-reference {ref} is stale"
  | .staleTagRef slot ref => s!"slot {slot} tag back-reference {ref} is stale"
  | .emptyChunk chunk => s!"chunk {chunk} bucket is empty"
  | .entryCounts chunkEntries tagEntries chunkRefs tagRefs =>
    s!"{chunkEntries} chunk / {tagEntries} tag entries, {chunkRefs} / {tagRefs} referenced"
  | .missingChunk slot chunk => s!"slot {slot} references missing chunk {chunk}"
  | .missingTag slot tag => s!"slot {slot} references missing tag {tag}"
  | .chunkPosition chunk error => s!"chunk {chunk}: {error.message}"
  | .tagPosition tag error => s!"tag {tag}: {error.message}"
  | .missingBackRef bucket position =>
    s!"no back-reference for bucket {bucket} at position {position}"
  | .vanishedChunk chunk => s!"chunk {chunk} vanished after reserve"
  | .image error => error.message

inductive MemoryUse where
  | atlasGrowth
  | atlasResize
deriving DecidableEq, Inhabited

def MemoryUse.message : MemoryUse → String
  | .atlasGrowth => "growing atlas image"
  | .atlasResize => "resizing atlas image"

inductive EngineError where
  | invalidBounds (id : Nat) (bounds : Rect)
  | invalidSprite (id : Nat) (fault : SpriteFault)
  | tagOutOfRange (tag : Nat)
  | regionTooLarge (width height max : Nat)
  | strideTooSmall (stride width : Nat)
  | sourceTooSmall (size needed : Nat)
  | regionOutOfRange (id : Nat)
  | atlasFull (width height maxWidth maxHeight : Nat)
  | outOfMemory (use : MemoryUse)
  | inconsistent (fault : ConsistencyFault)
  | uploadFailed (reason : String)
  | invalidConfig (fault : ConfigFault)
deriving DecidableEq, Inhabited

namespace EngineError

def message : EngineError → String
  | .invalidBounds id bounds => s!"invalid bounds {bounds} for entity {id}"
  | .invalidSprite id fault => s!"invalid sprite for entity {id}: {fault.message}"
  | .tagOutOfRange tag => s!"tag id {tag} out of range (max {tagCount - 1})"
  | .regionTooLarge width height max => s!"region size {width}x{height} exceeds {max} on one axis"
  | .strideTooSmall stride width => s!"stride {stride} smaller than region width {width}"
  | .sourceTooSmall size needed => s!"pixel source has {size} pixels, region needs {needed}"
  | .regionOutOfRange id => s!"region id {id} out of range"
  | .atlasFull width height maxWidth maxHeight =>
    s!"atlas cannot grow to {width}x{height} (max {maxWidth}x{maxHeight})"
  | .outOfMemory use => s!"out of memory while {use.message}"
  | .inconsistent fault => s!"index consistency violated: {fault.message}"
  | .uploadFailed reason => s!"texture upload failed: {reason}"
  | .invalidConfig fault => s!"invalid config: {fault.message}"

/-- What an image's refusal means to the engine that owns the image. -/
def ofImageError : ImageError → EngineError
  | .outOfMemory _ _ => .outOfMemory .atlasResize
  | error => .inconsistent (.image error)

end EngineError

/-- A tag is set by its number only if it is one. -/
def TagSet.set? (s : TagSet) (tag : Nat) (on : Bool) : Except EngineError TagSet :=
  if tag < tagCount then return s.set tag on else throw (.tagOutOfRange tag)

end SpriteField
