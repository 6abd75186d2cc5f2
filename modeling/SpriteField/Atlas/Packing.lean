import SpriteField.Atlas.Basic

/-!
# Packing the atlas

A region takes the top left corner of the first free rectangle that is large enough; what is left of
it to the right, as high as the region, and below, over the full width, becomes free.  If nothing
fits, the image grows downward by a shelf as high as the region.  Regions never move.

The pixels are written before the free list is cut, so a refusal has only the release of the old
region to take back.
-/

namespace SpriteField.Atlas

def checkSource (width height : Nat) (pixels : Array Color) (stride : Nat) : AtlasM Unit :=
  if exactWholeMax < width ∨ exactWholeMax < height then
    throw (.regionTooLarge width height exactWholeMax)
  else if width = 0 ∨ height = 0 then pure ()
  else if stride < width then throw (.strideTooSmall stride width)
  else
    let needed := (height - 1) * stride + width
    if pixels.size < needed then throw (.sourceTooSmall pixels.size needed) else pure ()

def ensureRegion (id : Nat) : AtlasM Unit :=
  if maxRegionId < id then throw (.regionOutOfRange id)
  else
    modify fun atlas =>
      { atlas with
        regions := atlas.regions ++ Array.replicate (id + 1 - atlas.regions.size) Rect.zero }

def regionAt (atlas : Atlas) (id : Nat) : Rect :=
  atlas.regions.getD id .zero

/-- Frees the space of a region, which then is empty. -/
def release (id : Nat) (atlas : Atlas) : Atlas :=
  let region := atlas.regionAt id
  { atlas with
    free := if region.hasArea then atlas.free.push region else atlas.free
    regions := atlas.regions.setIfInBounds id region.collapsed }

/-- Takes back the release of a region that was at `previous`, made when the free list had
`freeSize` elements. -/
def unrelease (id : Nat) (previous : Rect) (freeSize : Nat) (atlas : Atlas) : Atlas :=
  { atlas with
    free := if previous.hasArea then atlas.free.eraseIdxIfInBounds freeSize else atlas.free
    regions := atlas.regions.setIfInBounds id previous }

def fits (width height : Nat) (rect : Rect) : Bool :=
  .ofNat width ≤ rect.width && .ofNat height ≤ rect.height

/-- Adds a free shelf below the image and answers its place in the free list. -/
def grow (width height : Nat) : AtlasM Nat := do
  let atlas ← get
  let oldHeight := atlas.image.height
  let newWidth := max atlas.image.width width
  let newHeight := oldHeight + height
  if atlas.limits.maxWidth < newWidth ∨ atlas.limits.maxHeight < newHeight then
    throw (.atlasFull newWidth newHeight atlas.limits.maxWidth atlas.limits.maxHeight)
  match atlas.image.resize newWidth newHeight .transparent with
  | .error (.outOfMemory _ _) => throw (.outOfMemory .atlasGrowth)
  | .error error => throw (.ofImageError error)
  | .ok image =>
    let shelf : Rect := ⟨.zero, .ofNat oldHeight, .ofNat newWidth, .ofNat newHeight⟩
    set { atlas with
      image
      free := atlas.free.push shelf
      counters.growths := atlas.counters.growths.increment 1 }
    return atlas.free.size

/-- The first free rectangle that the block fits into, a new shelf if there is none. -/
def findFree (width height : Nat) : AtlasM Nat := do
  match (← get).free.findIdx? (fits width height) with
  | some i =>
    modify fun atlas =>
      { atlas with counters.freeListHits := atlas.counters.freeListHits.increment 1 }
    return i
  | none => grow width height

/-- Finds room for a block, writes its pixels there, and answers the place in the free list. -/
def place (width height : Nat) (pixels : Array Color) (stride : Nat) : AtlasM Nat := do
  let i ← findFree width height
  let atlas ← get
  let corner := atlas.free.getD i .zero
  match atlas.image.blitFrom corner.x1.toNat corner.y1.toNat width height pixels stride with
  | .ok image => set { atlas with image }
  | .error error => throw (.ofImageError error)
  return i

def taken (width height : Nat) (rect : Rect) : Rect :=
  ⟨rect.x1, rect.y1, rect.x1 + .ofNat width, rect.y1 + .ofNat height⟩

def strip (width height : Nat) (rect : Rect) : Rect :=
  ⟨rect.x1 + .ofNat width, rect.y1, rect.x2, rect.y1 + .ofNat height⟩

def remainder (height : Nat) (rect : Rect) : Rect :=
  ⟨rect.x1, rect.y1 + .ofNat height, rect.x2, rect.y2⟩

def pushFree (free : Array Rect) (rect : Rect) : Array Rect :=
  if rect.hasArea then free.push rect else free

/-- The free list after a block has taken the corner of its element `i`. -/
def cut (i width height : Nat) (free : Array Rect) : Array Rect :=
  let rect := free.getD i .zero
  swapPop (pushFree (pushFree free (strip width height rect)) (remainder height rect)) i

/-- Gives the region `id` the corner of the free rectangle `i`. -/
def allocate (id i width height : Nat) (atlas : Atlas) : Atlas :=
  let rect := atlas.free.getD i .zero
  let free := cut i width height atlas.free
  { atlas with
    free
    regions := atlas.regions.setIfInBounds id (taken width height rect)
    counters.regionsPlaced := atlas.counters.regionsPlaced.increment 1
    counters.freeListHighWater :=
      atlas.counters.freeListHighWater.recordMax (UInt64.ofNat free.size) }

/-- Packs a block of pixels, whose rows lie `stride` pixels apart, as region `id`, in place of what
the region held before.  Without width or height the region becomes empty.  If there is no room the
region stays as it was. -/
def setRegion (id width height : Nat) (pixels : Array Color) (stride : Nat) : AtlasM Unit := do
  checkSource width height pixels stride
  ensureRegion id
  let previous := (← get).regionAt id
  let freeSize := (← get).free.size
  modify (release id)
  if width = 0 ∨ height = 0 then pure ()
  else
    let i ← tryCatch (place width height pixels stride) fun error => do
      modify (unrelease id previous freeSize)
      throw error
    modify (allocate id i width height)

def resetRegion (id : Nat) : AtlasM Unit := do
  ensureRegion id
  modify (release id)

end SpriteField.Atlas
