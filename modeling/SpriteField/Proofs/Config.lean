import SpriteField.Config
import SpriteField.Proofs.Grid.Span
import SpriteField.Proofs.Json.Lexeme

/-!
# Configurations as text

The text of a configuration is plain, so it is cut into what it was put together from, and these
tokens make up one object of two objects.  Reading that object back gives the configuration if its
numbers fit 32 bits, as those of any valid configuration do.
-/

namespace SpriteField

/-! ## What validation lets through -/

theorem Grid.exists_fault_of_validate {g : Grid} {error : EngineError}
    (h : g.validate = .error error) : ∃ fault, error = .invalidConfig fault := by
  unfold validate at h
  split at h
  · cases h
    exact ⟨_, rfl⟩
  · split at h
    · cases h
      exact ⟨_, rfl⟩
    · cases h

namespace AtlasLimits

theorem exists_fault_of_validate {l : AtlasLimits} {error : EngineError}
    (h : l.validate = .error error) : ∃ fault, error = .invalidConfig fault := by
  unfold validate at h
  split at h
  · cases h
    exact ⟨_, rfl⟩
  · split at h
    · cases h
      exact ⟨_, rfl⟩
    · cases h

theorem le_of_validate {l : AtlasLimits} (h : l.validate = .ok ()) :
    l.maxWidth ≤ exactWholeMax ∧ l.maxHeight ≤ exactWholeMax := by
  unfold validate at h
  split at h
  · cases h
  · split at h
    · cases h
    next hsmall => omega

end AtlasLimits

namespace EngineConfig

open Json (Lexeme)

theorem validate_of_grid_ok {c : EngineConfig} (h : c.grid.validate = .ok ()) :
    c.validate = c.atlas.validate := by
  rw [validate, h]
  rfl

theorem validate_of_grid_error {c : EngineConfig} {error : EngineError}
    (h : c.grid.validate = .error error) : c.validate = .error error := by
  rw [validate, h]
  rfl

theorem validate_eq_ok {c : EngineConfig} (h : c.validate = .ok ()) :
    c.grid.validate = .ok () ∧ c.atlas.validate = .ok () := by
  cases hgrid : c.grid.validate with
  | error error =>
    rw [validate_of_grid_error hgrid] at h
    cases h
  | ok => exact ⟨rfl, by rwa [validate_of_grid_ok hgrid] at h⟩

theorem exists_fault_of_validate {c : EngineConfig} {error : EngineError}
    (h : c.validate = .error error) : ∃ fault, error = .invalidConfig fault := by
  cases hgrid : c.grid.validate with
  | error reason =>
    rw [validate_of_grid_error hgrid] at h
    cases h
    exact Grid.exists_fault_of_validate hgrid
  | ok =>
    rw [validate_of_grid_ok hgrid] at h
    exact AtlasLimits.exists_fault_of_validate h

/-- Every field is a number of 32 bits. -/
def fitsWords (c : EngineConfig) : Bool :=
  [c.grid.chunkWidthBits, c.grid.gridBits, c.atlas.maxWidth, c.atlas.maxHeight].all
    (· < 0x100000000)

theorem fitsWords_iff (c : EngineConfig) : c.fitsWords = true ↔
    (c.grid.chunkWidthBits < 0x100000000 ∧ c.grid.gridBits < 0x100000000) ∧
      c.atlas.maxWidth < 0x100000000 ∧ c.atlas.maxHeight < 0x100000000 := by
  simp [fitsWords, and_assoc]

theorem fitsWords_of_validate {c : EngineConfig} (h : c.validate = .ok ()) :
    c.fitsWords = true := by
  obtain ⟨hgrid, hatlas⟩ := validate_eq_ok h
  obtain ⟨hwidth, hheight⟩ := AtlasLimits.le_of_validate hatlas
  obtain ⟨-, hgridBits, hchunkWidthBits⟩ := c.grid.validate_eq_ok_iff.mp hgrid
  have hmaxima : exactWholeMax < 0x100000000 ∧ Grid.maxGridBits < 0x100000000 ∧
      Grid.maxChunkWidthBits < 0x100000000 := by decide
  rw [fitsWords_iff]
  omega

/-! ## The text -/

/-- What the text of a configuration is put together from. -/
def lexemes (c : EngineConfig) : List Lexeme := [
  .mark '\x7b', .gap "\n  ",
  .name "entity_index", .mark ':', .gap " ", .mark '\x7b', .gap "\n    ",
  .name "chunk_width_bits", .mark ':', .gap " ", .number c.grid.chunkWidthBits, .mark ',',
  .gap "\n    ",
  .name "grid_bits", .mark ':', .gap " ", .number c.grid.gridBits, .gap "\n  ",
  .mark '\x7d', .mark ',', .gap "\n  ",
  .name "atlas", .mark ':', .gap " ", .mark '\x7b', .gap "\n    ",
  .name "max_width", .mark ':', .gap " ", .number c.atlas.maxWidth, .mark ',', .gap "\n    ",
  .name "max_height", .mark ':', .gap " ", .number c.atlas.maxHeight, .gap "\n  ",
  .mark '\x7d', .gap "\n",
  .mark '\x7d']

theorem toList_text (c : EngineConfig) : c.text.toList = c.lexemes.flatMap Lexeme.chars := by
  simp [text, lexemes, Lexeme.chars, toString, Nat.repr]

theorem areSound_lexemes (c : EngineConfig) : Lexeme.areSound c.lexemes = true := rfl

def gridValue (g : Grid) : Json.Value := .object [
  (some "chunk_width_bits", .number (some g.chunkWidthBits)),
  (some "grid_bits", .number (some g.gridBits))]

def atlasValue (l : AtlasLimits) : Json.Value := .object [
  (some "max_width", .number (some l.maxWidth)),
  (some "max_height", .number (some l.maxHeight))]

/-- The value that the text of a configuration stands for. -/
def toValue (c : EngineConfig) : Json.Value := .object [
  (some "entity_index", gridValue c.grid),
  (some "atlas", atlasValue c.atlas)]

theorem ofText?_text (c : EngineConfig) : Json.Value.ofText? c.text = some c.toValue := by
  rw [Json.Value.ofText?, Lexeme.tokens?_eq c.areSound_lexemes c.toList_text]
  rfl

theorem word?_number (n : Nat) :
    (Json.Value.number (some n)).word? = if n < 0x100000000 then some n else none := rfl

theorem grid?_gridValue (g : Grid) :
    grid? (gridValue g) =
      if g.chunkWidthBits < 0x100000000 ∧ g.gridBits < 0x100000000 then some g else none := by
  change (do return (⟨← (Json.Value.number (some g.chunkWidthBits)).word?,
    ← (Json.Value.number (some g.gridBits)).word?⟩ : Grid)) = _
  rw [word?_number, word?_number]
  by_cases hwidth : g.chunkWidthBits < 0x100000000 <;> by_cases hbits : g.gridBits < 0x100000000 <;>
    simp [hwidth, hbits]

theorem atlas?_atlasValue (l : AtlasLimits) :
    atlas? (atlasValue l) =
      if l.maxWidth < 0x100000000 ∧ l.maxHeight < 0x100000000 then some l else none := by
  change (do return (⟨← (Json.Value.number (some l.maxWidth)).word?,
    ← (Json.Value.number (some l.maxHeight)).word?⟩ : AtlasLimits)) = _
  rw [word?_number, word?_number]
  by_cases hwidth : l.maxWidth < 0x100000000 <;> by_cases hheight : l.maxHeight < 0x100000000 <;>
    simp [hwidth, hheight]

theorem ofValue?_toValue (c : EngineConfig) :
    ofValue? c.toValue = if c.fitsWords then some c else none := by
  change (do return (⟨← grid? (gridValue c.grid), ← atlas? (atlasValue c.atlas)⟩ :
    EngineConfig)) = _
  rw [grid?_gridValue, atlas?_atlasValue]
  by_cases hgrid : c.grid.chunkWidthBits < 0x100000000 ∧ c.grid.gridBits < 0x100000000
  · by_cases hatlas : c.atlas.maxWidth < 0x100000000 ∧ c.atlas.maxHeight < 0x100000000
    · rw [if_pos hgrid, if_pos hatlas, if_pos (c.fitsWords_iff.mpr ⟨hgrid, hatlas⟩)]
      rfl
    · rw [if_pos hgrid, if_neg hatlas, if_neg fun hfits => hatlas (c.fitsWords_iff.mp hfits).2]
      rfl
  · rw [if_neg hgrid, if_neg fun hfits => hgrid (c.fitsWords_iff.mp hfits).1]
    rfl

/-- Reading the text of a configuration comes to validating the configuration. -/
theorem ofText_text (c : EngineConfig) :
    ofText c.text =
      if c.fitsWords then c.validate.map fun _ => c else .error (.invalidConfig .malformed) := by
  rw [ofText, ofText?_text, Option.bind_some, ofValue?_toValue]
  cases c.fitsWords with
  | true => rfl
  | false => rfl

theorem validate_of_ofText {text : String} {c : EngineConfig} (h : ofText text = .ok c) :
    c.validate = .ok () := by
  unfold ofText at h
  cases hvalue : (Json.Value.ofText? text).bind ofValue? with
  | none =>
    rw [hvalue] at h
    cases h
  | some config =>
    rw [hvalue] at h
    cases hvalid : config.validate with
    | error error =>
      simp only [hvalid] at h
      cases h
    | ok value =>
      simp only [hvalid] at h
      cases h
      exact hvalid

/-- What is written for a configuration and what is read as one fit together. -/
structure RoundTrips : Prop where
  valid : ∀ c : EngineConfig, c.validate = .ok () → ofText c.text = .ok c
  invalid : ∀ (c : EngineConfig) (error : EngineError), c.validate = .error error →
    ∃ fault, ofText c.text = .error (.invalidConfig fault)
  /-- The fault is the one that validation finds, unless a number is too large to be read. -/
  fault : ∀ (c : EngineConfig) (error : EngineError), c.fitsWords = true →
    c.validate = .error error → ofText c.text = .error error
  closed : ∀ (text : String) (c : EngineConfig), ofText text = .ok c →
    c.validate = .ok () ∧ ofText c.text = .ok c

theorem ofText_text_of_validate {c : EngineConfig} (h : c.validate = .ok ()) :
    ofText c.text = .ok c := by
  rw [ofText_text, fitsWords_of_validate h, h]
  rfl

/-- Every valid configuration is read back as it was, no other one is read back at all, and whatever
is read is valid. -/
theorem roundTrips : RoundTrips where
  valid _ h := ofText_text_of_validate h
  invalid c error h := by
    obtain ⟨fault, rfl⟩ := exists_fault_of_validate h
    rw [ofText_text, h]
    split
    · exact ⟨fault, rfl⟩
    · exact ⟨_, rfl⟩
  fault c error hfits h := by
    rw [ofText_text, hfits, h]
    rfl
  closed _ _ h := ⟨validate_of_ofText h, ofText_text_of_validate (validate_of_ofText h)⟩

/-- A configuration at both limits of the atlas, and one without chunks. -/
theorem roundTrips_at_limits :
    let largest : EngineConfig := ⟨⟨16, 12⟩, ⟨2 ^ 24, 2 ^ 24⟩⟩
    let empty : EngineConfig := ⟨⟨16, 0⟩, ⟨2 ^ 24, 2 ^ 24⟩⟩
    largest.validate = .ok () ∧ ofText largest.text = .ok largest ∧
      empty.validate = .error (.invalidConfig (.gridBits 12 0)) ∧
      ofText empty.text = .error (.invalidConfig (.gridBits 12 0)) := by
  intro largest empty
  have hlargest : largest.validate = .ok () := rfl
  have hempty : empty.validate = .error (.invalidConfig (.gridBits 12 0)) := rfl
  exact ⟨hlargest, roundTrips.valid largest hlargest, hempty, roundTrips.fault empty _ rfl hempty⟩

end EngineConfig
end SpriteField
