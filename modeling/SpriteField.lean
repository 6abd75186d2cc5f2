import SpriteField.Main
import SpriteField.Proofs.Binary32.Order
import SpriteField.Proofs.Binary32.Whole
import SpriteField.Proofs.Binary32.Exact
import SpriteField.Proofs.Binary32.Quotient
import SpriteField.Proofs.Binary32.Rounded
import SpriteField.Proofs.Generator.Period
import SpriteField.Proofs.Generator.Range
import SpriteField.Proofs.Hex
import SpriteField.Proofs.Counter
import SpriteField.Proofs.Bucket
import SpriteField.Proofs.Bucket.Positions
import SpriteField.Proofs.TagSet
import SpriteField.Proofs.TagSet.Replay
import SpriteField.Proofs.Rect
import SpriteField.Proofs.Grid.Overlap
import SpriteField.Proofs.Grid.Cover
import SpriteField.Proofs.Refusal
import SpriteField.Proofs.EntityIndex.Linked
import SpriteField.Proofs.EntityIndex.Tables
import SpriteField.Proofs.EntityIndex.Leave
import SpriteField.Proofs.EntityIndex.Join
import SpriteField.Proofs.EntityIndex.Consistent
import SpriteField.Proofs.EntityIndex.Replace
import SpriteField.Proofs.EntityIndex.Calls
import SpriteField.Proofs.EntityIndex.Representation
import SpriteField.Proofs.EntityIndex.Search
import SpriteField.Proofs.EntityIndex.Assertions
import SpriteField.Proofs.EntityIndex.Refusals
import SpriteField.Proofs.EntityIndex.Painting
import SpriteField.Proofs.EntityIndex.Ties
import SpriteField.Proofs.EntityIndex.Plans
import SpriteField.Proofs.EntityIndex.Supersede
import SpriteField.Proofs.EntityIndex.Decompose
import SpriteField.Proofs.EntityIndex.Limit
import SpriteField.Proofs.EntityIndex.Effort
import SpriteField.Proofs.EntityIndex.Detection
import SpriteField.Proofs.EntityIndex.Counting
import SpriteField.Proofs.EntityIndex.Ledger
import SpriteField.Proofs.Atlas.Box
import SpriteField.Proofs.Atlas.Tiling
import SpriteField.Proofs.Atlas.Packing
import SpriteField.Proofs.Atlas.Calls
import SpriteField.Proofs.Atlas.Coverage
import SpriteField.Proofs.Atlas.Content
import SpriteField.Proofs.Atlas.Growth
import SpriteField.Proofs.Atlas.Refusals
import SpriteField.Proofs.Atlas.Replacement
import SpriteField.Proofs.Atlas.HighWater
import SpriteField.Proofs.Image.InPlace
import SpriteField.Proofs.Image.Block
import SpriteField.Proofs.Image.Resizing
import SpriteField.Proofs.TextureAtlas
import SpriteField.Proofs.TextureCoordinates
import SpriteField.Proofs.Json.Grammar
import SpriteField.Proofs.Json.Scan
import SpriteField.Proofs.Json.Reading
import SpriteField.Proofs.Json.Lexeme
import SpriteField.Proofs.Json.Members
import SpriteField.Proofs.Config
import SpriteField.Proofs.Config.Overlay
import SpriteField.Proofs.Workload.Run
import SpriteField.Proofs.Workload.Movers
import SpriteField.Proofs.Workload.FieldCounts
import SpriteField.Proofs.Workload.GlyphCounts
import SpriteField.Proofs.Workload.Report
import SpriteField.Proofs.Generator.Shuffle
import SpriteField.Proofs.Blit
import SpriteField.Proofs.Atlas.Reserve
