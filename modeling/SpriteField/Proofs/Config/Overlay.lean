import SpriteField.Proofs.Config
import SpriteField.Proofs.Json.Members
import SpriteField.Proofs.Json.Reading

/-!
# Partial documents

A document need not set every field, and may hold members that no field belongs to.  Such members
are skipped, whatever their values hold, and so are the order of the members and all blanks.  What
is left are the fields that the document sets, which are put over the defaults.

A name whose escapes do not make up characters is no name of a member that could be skipped: the
document is refused.
-/

namespace SpriteField

namespace EngineConfig

open Json (Members Spells)

/-- The fields of a document, which may each be missing. -/
structure Fields where
  chunkWidthBits : Option Nat
  gridBits : Option Nat
  maxWidth : Option Nat
  maxHeight : Option Nat

/-- The defaults with the given fields in their place. -/
def overlay (fields : Fields) : EngineConfig where
  grid := ⟨fields.chunkWidthBits.getD standard.grid.chunkWidthBits,
    fields.gridBits.getD standard.grid.gridBits⟩
  atlas := ⟨fields.maxWidth.getD standard.atlas.maxWidth,
    fields.maxHeight.getD standard.atlas.maxHeight⟩

/-- The records of a document and their fields. -/
def records : List (String × List String) :=
  [("entity_index", ["chunk_width_bits", "grid_bits"]), ("atlas", ["max_width", "max_height"])]

/-- The document sets these fields and no others. -/
structure Sets (members : Members) (fields : Fields) : Prop where
  grid : members.SetsRecord "entity_index" "chunk_width_bits" "grid_bits"
    fields.chunkWidthBits fields.gridBits
  atlas : members.SetsRecord "atlas" "max_width" "max_height" fields.maxWidth fields.maxHeight

/-- The names in the document and in its records have texts. -/
def HasNames (members : Members) : Prop :=
  members.Named ∧ ∀ record ∈ records, ∀ fields : Members,
    .object fields ∈ members.valuesOf record.1 → fields.Named

/-- A record, or a field within one, occurs more than once. -/
def Repeats (members : Members) : Prop :=
  (∃ record ∈ records, 2 ≤ (members.valuesOf record.1).length) ∨
    ∃ record ∈ records, ∃ fields : Members, .object fields ∈ members.valuesOf record.1 ∧
      ∃ name ∈ record.2, 2 ≤ (fields.valuesOf name).length

/-- The documents differ in the order of their members and in members that set nothing. -/
def Alike (members members' : Members) : Prop :=
  ∀ record ∈ records, List.Forall₂ (Members.SameFields record.2) (members.valuesOf record.1)
    (members'.valuesOf record.1)

theorem field?_of_setsField {members : Members} {name : String} {field : Option Nat}
    (h : members.SetsField name field) (default : Nat) :
    field? default (field.map fun n => .number (some n)) = some (field.getD default) := by
  cases field with
  | none => rfl
  | some n => exact if_pos (h.fits n rfl)

theorem grid?_of_sets {members : Members} (hnamed : members.Named) {x y : Option Nat}
    (hx : members.SetsField "chunk_width_bits" x) (hy : members.SetsField "grid_bits" y) :
    grid? (.object members) = some ⟨x.getD standard.grid.chunkWidthBits,
      y.getD standard.grid.gridBits⟩ := by
  rw [grid?, Members.record?_of_setsField hnamed hx hy]
  simp only [field?_of_setsField hx, field?_of_setsField hy]
  rfl

theorem atlas?_of_sets {members : Members} (hnamed : members.Named) {x y : Option Nat}
    (hx : members.SetsField "max_width" x) (hy : members.SetsField "max_height" y) :
    atlas? (.object members) = some ⟨x.getD standard.atlas.maxWidth,
      y.getD standard.atlas.maxHeight⟩ := by
  rw [atlas?, Members.record?_of_setsField hnamed hx hy]
  simp only [field?_of_setsField hx, field?_of_setsField hy]
  rfl

theorem ofValue?_eq {members : Members} (h : members.Named) :
    ofValue? (.object members) = do
      let grid ← Json.Value.member? members "entity_index"
      let atlas ← Json.Value.member? members "atlas"
      return ⟨← grid.elim (some .standard) grid?, ← atlas.elim (some .standard) atlas?⟩ := by
  rw [ofValue?, Members.record?_eq h]
  cases Json.Value.member? members "entity_index" <;>
    cases Json.Value.member? members "atlas" <;> rfl

theorem ofValue?_of_sets {members : Members} {fields : Fields} (hnames : HasNames members)
    (h : Sets members fields) : ofValue? (.object members) = some (overlay fields) := by
  obtain ⟨hnamed, hrecords⟩ := hnames
  have hgrid : ∃ value, Json.Value.member? members "entity_index" = some value ∧
      value.elim (some .standard) grid? = some (overlay fields).grid := by
    refine h.grid.exists_member? ?_ ?_
    · intro record hrecord
      exact grid?_of_sets (hrecords _ List.mem_cons_self record hrecord)
    · intro hx hy
      rw [overlay, hx, hy]
      rfl
  have hatlas : ∃ value, Json.Value.member? members "atlas" = some value ∧
      value.elim (some .standard) atlas? = some (overlay fields).atlas := by
    refine h.atlas.exists_member? ?_ ?_
    · intro record hrecord
      exact atlas?_of_sets
        (hrecords _ (List.mem_cons_of_mem _ List.mem_cons_self) record hrecord)
    · intro hx hy
      rw [overlay, hx, hy]
      rfl
  obtain ⟨grid, hgrid, hgridRead⟩ := hgrid
  obtain ⟨atlas, hatlas, hatlasRead⟩ := hatlas
  rw [ofValue?_eq hnamed, hgrid, hatlas]
  simp only [Option.bind_eq_bind, Option.bind_some, hgridRead, hatlasRead]
  rfl

/-! ## Documents that are refused -/

/-- A record that cannot be read is not skipped. -/
theorem ofValue?_of_spoilt_record {members : Members} {record : String × List String}
    (hrecord : record ∈ records) {fields : Members}
    (hfields : .object fields ∈ members.valuesOf record.1) (h : fields.Spoilt record.2) :
    ofValue? (.object members) = none := by
  by_cases hnamed : members.Named
  · rw [ofValue?_eq hnamed]
    simp only [records, List.mem_cons, List.not_mem_nil, or_false] at hrecord
    rcases hrecord with rfl | rfl
    · have hgrid : grid? (.object fields) = none := by rw [grid?, h.record?]
      rcases Members.member?_of_mem hfields with hvalue | hvalue
      · rw [hvalue]
        rfl
      · rw [hvalue]
        cases Json.Value.member? members "atlas" with
        | none => rfl
        | some atlas => simp [hgrid]
    · have hatlas : atlas? (.object fields) = none := by rw [atlas?, h.record?]
      rcases Members.member?_of_mem hfields with hvalue | hvalue
      · rw [hvalue]
        cases Json.Value.member? members "entity_index" <;> rfl
      · rw [hvalue]
        cases Json.Value.member? members "entity_index" with
        | none => rfl
        | some grid => simp [hatlas]
  · rw [ofValue?, Members.record?_of_not_named hnamed]

theorem ofValue?_of_not_hasNames {members : Members} (h : ¬HasNames members) :
    ofValue? (.object members) = none := by
  rw [HasNames, not_and_or] at h
  rcases h with hnamed | hrecords
  · rw [ofValue?, Members.record?_of_not_named hnamed]
  · push Not at hrecords
    obtain ⟨record, hrecord, fields, hfields, hnamed⟩ := hrecords
    exact ofValue?_of_spoilt_record hrecord hfields (Or.inl hnamed)

theorem ofValue?_of_repeats {members : Members} (h : Repeats members) :
    ofValue? (.object members) = none := by
  rcases h with ⟨record, hrecord, hlength⟩ | ⟨record, hrecord, fields, hfields, hrepeats⟩
  · have hspoilt : members.Spoilt ["entity_index", "atlas"] :=
      Or.inr ⟨record.1, List.mem_map_of_mem hrecord, hlength⟩
    rw [ofValue?, hspoilt.record?]
  · exact ofValue?_of_spoilt_record hrecord hfields (Or.inr hrepeats)

/-! ## Texts -/

theorem ofText_of_ofValue?_eq_none {text : String} {value : Json.Value}
    (htext : Spells text.toList value) (h : ofValue? value = none) :
    ofText text = .error (.invalidConfig .malformed) := by
  rw [ofText, Json.ofText?_of_spells htext, Option.bind_some, h]
  rfl

theorem ofText_of_sets {text : String} {members : Members} {fields : Fields}
    (htext : Spells text.toList (.object members)) (hnames : HasNames members)
    (h : Sets members fields) :
    ofText text = (overlay fields).validate.map fun _ => overlay fields := by
  rw [ofText, Json.ofText?_of_spells htext, Option.bind_some, ofValue?_of_sets hnames h]
  rfl

theorem Sets.eq_of_alike {members members' : Members} {fields fields' : Fields}
    (h : Sets members fields) (h' : Sets members' fields') (halike : Alike members members') :
    fields = fields' := by
  obtain ⟨hwidth, hbits⟩ := h.grid.eq_of_alike h'.grid (halike _ List.mem_cons_self)
  obtain ⟨hmaxWidth, hmaxHeight⟩ :=
    h.atlas.eq_of_alike h'.atlas (halike _ (List.mem_cons_of_mem _ List.mem_cons_self))
  cases fields
  cases fields'
  simp_all

/-- What is read from a text that is an object. -/
structure OverlaysDefaults : Prop where
  valid : ∀ (text : String) (members : Members) (fields : Fields),
    Spells text.toList (.object members) → HasNames members → Sets members fields →
    (overlay fields).validate = .ok () → ofText text = .ok (overlay fields)
  invalid : ∀ (text : String) (members : Members) (fields : Fields),
    Spells text.toList (.object members) → HasNames members → Sets members fields →
    (overlay fields).validate ≠ .ok () → ∃ fault, ofText text = .error (.invalidConfig fault)
  repeated : ∀ (text : String) (members : Members), Spells text.toList (.object members) →
    Repeats members → ∃ fault, ofText text = .error (.invalidConfig fault)
  unnamed : ∀ (text : String) (members : Members), Spells text.toList (.object members) →
    ¬HasNames members → ∃ fault, ofText text = .error (.invalidConfig fault)
  alike : ∀ (text text' : String) (members members' : Members) (fields fields' : Fields),
    Spells text.toList (.object members) → Spells text'.toList (.object members') →
    HasNames members → HasNames members' → Sets members fields → Sets members' fields' →
    Alike members members' → ofText text = ofText text'

/-- A document that sets some fields is read as the defaults with these fields in their place. -/
theorem overlaysDefaults : OverlaysDefaults where
  valid text members fields htext hnames hsets hvalid := by
    rw [ofText_of_sets htext hnames hsets, hvalid]
    rfl
  invalid text members fields htext hnames hsets hinvalid := by
    rw [ofText_of_sets htext hnames hsets]
    cases hresult : (overlay fields).validate with
    | ok => exact absurd hresult hinvalid
    | error error =>
      obtain ⟨fault, rfl⟩ := exists_fault_of_validate hresult
      exact ⟨fault, rfl⟩
  repeated text members htext hrepeats :=
    ⟨_, ofText_of_ofValue?_eq_none htext (ofValue?_of_repeats hrepeats)⟩
  unnamed text members htext hnames :=
    ⟨_, ofText_of_ofValue?_eq_none htext (ofValue?_of_not_hasNames hnames)⟩
  alike text text' members members' fields fields' htext htext' hnames hnames' hsets hsets'
      halike := by
    rw [ofText_of_sets htext hnames hsets, ofText_of_sets htext' hnames' hsets',
      hsets.eq_of_alike hsets' halike]

/-- A member that is known only elsewhere is skipped with the rest of its object. -/
theorem overlaysDefaults_skips :
    let text := "\x7b\"x\":\x7b\"atlas\":-1\x7d,\"atlas\":\x7b\"max_width\":512\x7d\x7d"
    let members : Members := [(some "x", .object [(some "atlas", .number none)]),
      (some "atlas", .object [(some "max_width", .number (some 512))])]
    let fields : Fields := ⟨none, none, some 512, none⟩
    Spells text.toList (.object members) ∧ HasNames members ∧ Sets members fields ∧
      (overlay fields).validate = .ok () ∧ ofText text = .ok ⟨.standard, ⟨512, 16384⟩⟩ := by
  intro text members fields
  have hskipped : Spells "\x7b\"atlas\":-1\x7d".toList (.object [(some "atlas", .number none)]) :=
    .plainObject [("atlas", "-1".toList, .number none)] (by simp) (by simp [Json.isPlain])
      (by simpa using .number (.negative 1 .absent .absent))
  have hatlas : Spells "\x7b\"max_width\":512\x7d".toList
      (.object [(some "max_width", .number (some 512))]) :=
    .plainObject [("max_width", "512".toList, .number (some 512))] (by simp)
      (by simp [Json.isPlain]) (by simpa using .number (.plain 512))
  have htext : Spells text.toList (.object members) := by
    have hobject := Spells.plainObject
      [("x", "\x7b\"atlas\":-1\x7d".toList, .object [(some "atlas", .number none)]),
        ("atlas", "\x7b\"max_width\":512\x7d".toList,
          .object [(some "max_width", .number (some 512))])]
      (by simp) (by simp [Json.isPlain])
      (List.forall_mem_cons.mpr ⟨hskipped, List.forall_mem_singleton.mpr hatlas⟩)
    simpa [text, members] using hobject
  have hnames : HasNames members := by
    simp [HasNames, records, Members.Named, Members.valuesOf, members]
  have hsets : Sets members fields := by
    have hwidth : Members.SetsField [(some "max_width", .number (some 512))] "max_width"
        (some 512) := ⟨rfl, by simp⟩
    refine ⟨⟨[], Or.inr ⟨?_, rfl⟩, Members.setsField_none rfl, Members.setsField_none rfl⟩,
      ⟨_, Or.inl ?_, hwidth, Members.setsField_none rfl⟩⟩
    · simp [Members.valuesOf, members]
    · simp [Members.valuesOf, members]
  have hvalid : (overlay fields).validate = .ok () := rfl
  exact ⟨htext, hnames, hsets, hvalid,
    overlaysDefaults.valid text members fields htext hnames hsets hvalid⟩

/-- An escape that is no character, in a name that no field has. -/
theorem ofText_of_unpaired_surrogate :
    let text := "\x7b\"\\ud800x\":1\x7d"
    let members : Members := [(none, .number (some 1))]
    let fields : Fields := ⟨none, none, none, none⟩
    Spells text.toList (.object members) ∧ Sets members fields ∧
      (overlay fields).validate = .ok () ∧ ofText text = .error (.invalidConfig .malformed) := by
  intro text members fields
  have hhex : Json.IsHexDigit 'd' 13 ∧ Json.IsHexDigit '8' 8 ∧ Json.IsHexDigit '0' 0 :=
    ⟨⟨by decide, Or.inl rfl⟩, ⟨by decide, Or.inl rfl⟩, ⟨by decide, Or.inl rfl⟩⟩
  have hname : Json.Literal "\"\\ud800x\"".toList none := by
    have hliteral := @Json.Literal.quoted
      [("\\ud800".toList, .unit 0xd800), (['x'], .char 'x')] none
      (List.forall_mem_cons.mpr ⟨.unit hhex.1 hhex.2.1 hhex.2.2 hhex.2.2,
        List.forall_mem_singleton.mpr (.plain (by decide))⟩)
      fun s => by
        rw [← Json.Piece.map_decode?_eq_some_iff (by simp)]
        simp [Json.Piece.decode?, Json.Piece.isHighSurrogate]
    exact hliteral
  have htext : Spells text.toList (.object members) := by
    have hobject := @Spells.object
      [⟨"\"\\ud800x\"".toList, none, "1".toList, .number (some 1)⟩] (by simp)
      (List.forall_mem_singleton.mpr (.string hname))
      (List.forall_mem_singleton.mpr (.number (.plain 1)))
    simpa [text, members, Json.Entry.chars, Json.Entry.member] using hobject
  have hsets : Sets members fields :=
    ⟨⟨[], Or.inr ⟨rfl, rfl⟩, Members.setsField_none rfl, Members.setsField_none rfl⟩,
      ⟨[], Or.inr ⟨rfl, rfl⟩, Members.setsField_none rfl, Members.setsField_none rfl⟩⟩
  have hnames : ¬HasNames members := by
    simp [HasNames, Members.Named, members]
  exact ⟨htext, hsets, rfl, ofText_of_ofValue?_eq_none htext (ofValue?_of_not_hasNames hnames)⟩

end EngineConfig
end SpriteField
