import SpriteField.Proofs.Json.Scan

/-!
# Every JSON text is read as its value

The induction is on how the text is written.  What a value's characters are read as is stated for
any stack that the machine holds before them and for any text that is left behind them.
-/

namespace SpriteField.Json

namespace Reading

/-- From this state the machine reads the characters to their end and then has the value. -/
def Reads (r : Reading) (chars : List Char) (value : Value) : Prop :=
  ∃ tokens, Cuts chars tokens ∧ (tokens.foldlM step r).bind value? = some value

variable {r next : Reading} {rest : List Char} {result : Value} {stack : List Frame}

theorem reads_done (value : Value) : (done value).Reads [] value :=
  ⟨[], cuts_nil, rfl⟩

/-- A number cannot go on with a blank. -/
theorem of_mem_blanks {c : Char} (h : c ∈ blanks) :
    isBlank c = true ∧ extendsNumber c = false := by
  simp only [blanks, List.mem_cons, List.not_mem_nil, or_false] at h
  rcases h with rfl | rfl | rfl | rfl <;> exact ⟨rfl, rfl⟩

theorem Reads.blank (h : r.Reads rest result) {c : Char} (hc : c ∈ blanks) :
    r.Reads (c :: rest) result := by
  obtain ⟨tokens, hcuts, hvalue⟩ := h
  exact ⟨tokens, hcuts.blank (of_mem_blanks hc).1, hvalue⟩

theorem Reads.gap (h : r.Reads rest result) {gap : List Char} (hgap : ∀ c ∈ gap, c ∈ blanks) :
    r.Reads (gap ++ rest) result := by
  induction gap with
  | nil => exact h
  | cons c gap ih =>
    exact (ih fun c hc => hgap c (List.mem_cons_of_mem _ hc)).blank (hgap c List.mem_cons_self)

theorem Reads.token (h : next.Reads rest result) {chars : List Char} {token : Token}
    (hscans : Scans chars token rest) (hstep : r.step token = some next) :
    r.Reads (chars ++ rest) result := by
  obtain ⟨tokens, hcuts, hvalue⟩ := h
  refine ⟨token :: tokens, hcuts.token hscans, ?_⟩
  rw [List.foldlM_cons, hstep]
  exact hvalue

theorem Reads.mark (h : next.Reads rest result) {c : Char} {token : Token}
    (hmark : markToken? c = some token) (hstep : r.step token = some next) :
    r.Reads (c :: rest) result :=
  h.token (scans_mark hmark rest) hstep

/-- What does not close the list is its first item. -/
theorem Reads.firstItem (h : (awaitValue (.list [] :: stack)).Reads rest result) :
    (awaitFirstItem stack).Reads rest result := by
  obtain ⟨tokens, hcuts, hvalue⟩ := h
  refine ⟨tokens, hcuts, ?_⟩
  cases tokens with
  | nil => cases hvalue
  | cons token tokens =>
    cases token with
    | closeBracket => cases hvalue
    | _ => exact hvalue

theorem Reads.firstName (h : (awaitName [] stack).Reads rest result) :
    (awaitFirstName stack).Reads rest result := by
  obtain ⟨tokens, hcuts, hvalue⟩ := h
  refine ⟨tokens, hcuts, ?_⟩
  cases tokens with
  | nil => cases hvalue
  | cons token tokens =>
    cases token with
    | string => exact hvalue
    | _ => cases hvalue

end Reading

open Reading

/-- The characters are read as the value, in whatever is open and whatever is behind them. -/
def Readable (chars : List Char) (value : Value) : Prop :=
  ∀ ⦃stack : List Frame⦄ ⦃next : Reading⦄ ⦃rest : List Char⦄ ⦃result : Value⦄,
    rest.head?.any extendsNumber = false → completed value stack = some next →
    next.Reads rest result → (awaitValue stack).Reads (chars ++ rest) result

section Parts

variable {next : Reading} {rest : List Char} {result : Value} {stack : List Frame}

theorem reads_items {items : List (List Char × Value)} (hne : items ≠ [])
    (hitems : ∀ item ∈ items, Readable item.1 item.2) {read : List Value}
    (hcompleted : completed (.list (read.reverse ++ items.map (·.2))) stack = some next)
    (h : next.Reads rest result) :
    (awaitValue (.list read :: stack)).Reads
      ([','].intercalate (items.map (·.1)) ++ ']' :: rest) result := by
  induction items generalizing read with
  | nil => exact absurd rfl hne
  | cons item items ih =>
    have hitem := hitems item List.mem_cons_self
    cases items with
    | nil =>
      rw [List.map_singleton, List.intercalate_singleton]
      refine hitem rfl rfl (h.mark rfl ?_)
      rw [step, List.reverse_cons]
      exact hcompleted
    | cons following items =>
      rw [List.map_cons, List.map_cons, List.intercalate_cons_cons, List.append_assoc,
        List.append_assoc]
      refine hitem rfl rfl (Reads.mark (ih (List.cons_ne_nil _ _) ?_ ?_) rfl rfl)
      · exact fun item hmem => hitems item (List.mem_cons_of_mem _ hmem)
      · rw [List.reverse_cons, List.append_assoc]
        exact hcompleted

/-- A name with blanks around it. -/
theorem Spells.reads_name {chars : List Char} {name : Option String}
    (h : Spells chars (.string name)) {members : List (Option String × Value)}
    (hrest : (awaitColon (.member members name :: stack)).Reads rest result) :
    (awaitName members stack).Reads (chars ++ rest) result := by
  generalize hvalue : Value.string name = value at h
  induction h generalizing rest with
  | string hliteral =>
    cases hvalue
    exact hrest.token (scans_literal hliteral rest) rfl
  | before hc h ih => exact (ih hrest hvalue).blank hc
  | after hc h ih =>
    rw [List.append_assoc]
    exact ih (hrest.blank hc) hvalue
  | _ => cases hvalue

theorem reads_entries {entries : List Entry} (hne : entries ≠ [])
    (hnames : ∀ entry ∈ entries, Spells entry.nameChars (.string entry.name))
    (hvalues : ∀ entry ∈ entries, Readable entry.valueChars entry.value)
    {read : List (Option String × Value)}
    (hcompleted : completed (.object (read.reverse ++ entries.map (·.member))) stack = some next)
    (h : next.Reads rest result) :
    (awaitName read stack).Reads
      ([','].intercalate (entries.map (·.chars)) ++ '\x7d' :: rest) result := by
  induction entries generalizing read with
  | nil => exact absurd rfl hne
  | cons entry entries ih =>
    have hname := hnames entry List.mem_cons_self
    have hvalue := hvalues entry List.mem_cons_self
    cases entries with
    | nil =>
      rw [List.map_singleton, List.intercalate_singleton, Entry.chars, List.append_assoc]
      refine hname.reads_name (Reads.mark (hvalue rfl rfl (h.mark rfl ?_)) rfl rfl)
      rw [step, List.reverse_cons]
      exact hcompleted
    | cons following entries =>
      rw [List.map_cons, List.map_cons, List.intercalate_cons_cons, Entry.chars,
        List.append_assoc, List.append_assoc, List.append_assoc]
      refine hname.reads_name (Reads.mark (hvalue rfl rfl (Reads.mark (ih ?_ ?_ ?_ ?_) rfl rfl))
        rfl rfl)
      · exact List.cons_ne_nil _ _
      · exact fun entry hmem => hnames entry (List.mem_cons_of_mem _ hmem)
      · exact fun entry hmem => hvalues entry (List.mem_cons_of_mem _ hmem)
      · rw [List.reverse_cons, List.append_assoc]
        exact hcompleted

end Parts

theorem Spells.readable {chars : List Char} {value : Value} (h : Spells chars value) :
    Readable chars value := by
  induction h with
  | null | boolTrue | boolFalse =>
    intro stack next rest result _ hcompleted hnext
    exact hnext.token ⟨_, _, rfl, rfl, rfl⟩ hcompleted
  | number hnumeral =>
    intro stack next rest result hends hcompleted hnext
    exact hnext.token (scans_numeral hnumeral hends) hcompleted
  | string hliteral =>
    intro stack next rest result _ hcompleted hnext
    exact hnext.token (scans_literal hliteral rest) hcompleted
  | emptyList hgap =>
    intro stack next rest result _ hcompleted hnext
    rw [List.cons_append, List.append_assoc]
    refine Reads.mark (Reads.gap (hnext.mark rfl ?_) hgap) rfl rfl
    exact hcompleted
  | list hne _ ih =>
    intro stack next rest result _ hcompleted hnext
    have hitems : (awaitValue (.list [] :: stack)).Reads _ result :=
      reads_items hne ih hcompleted hnext
    rw [List.cons_append, List.append_assoc]
    exact hitems.firstItem.mark rfl rfl
  | emptyObject hgap =>
    intro stack next rest result _ hcompleted hnext
    rw [List.cons_append, List.append_assoc]
    refine Reads.mark (Reads.gap (hnext.mark rfl ?_) hgap) rfl rfl
    exact hcompleted
  | object hne hnames _ _ ih =>
    intro stack next rest result _ hcompleted hnext
    have hentries : (awaitName [] stack).Reads _ result :=
      reads_entries hne hnames ih hcompleted hnext
    rw [List.cons_append, List.append_assoc]
    exact hentries.firstName.mark rfl rfl
  | before hc _ ih =>
    intro stack next rest result hends hcompleted hnext
    exact (ih hends hcompleted hnext).blank hc
  | after hc _ ih =>
    intro stack next rest result hends hcompleted hnext
    rw [List.append_assoc]
    exact ih (of_mem_blanks hc).2 hcompleted (hnext.blank hc)

/-- Every JSON text is read as the value that it stands for. -/
theorem ofText?_of_spells {text : String} {value : Value} (h : Spells text.toList value) :
    Value.ofText? text = some value := by
  have hreads : (awaitValue []).Reads (text.toList ++ []) value :=
    h.readable rfl rfl (reads_done value)
  rw [List.append_nil] at hreads
  obtain ⟨tokens, hcuts, hvalue⟩ := hreads
  rw [Value.ofText?, hcuts.tokens?]
  exact hvalue

end SpriteField.Json
