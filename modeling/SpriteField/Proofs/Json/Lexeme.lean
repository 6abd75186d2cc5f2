import SpriteField.Proofs.Json.Scan

/-!
# What plain text is cut into

A text is plain if it consists of blanks, punctuation, strings without escapes and natural numbers.
It is cut into what it was put together from, as long as no number runs into what is written behind
it.
-/

namespace SpriteField.Json

/-- A part of a plain text. -/
inductive Lexeme where
  | gap (text : String)
  | mark (c : Char)
  | name (text : String)
  | number (n : Nat)

namespace Lexeme

def chars : Lexeme → List Char
  | gap text => text.toList
  | mark c => [c]
  | name text => '"' :: (text.toList ++ ['"'])
  | number n => Nat.toDigits 10 n

def token? : Lexeme → Option Token
  | gap _ => none
  | mark c => markToken? c
  | name text => some (.string (some text))
  | number n => some (.number (some n))

/-- The lexeme is what it stands for, whatever is behind it. -/
def isSound (cs : List Char) : Lexeme → Bool
  | gap text => text.toList.all isBlank
  | mark c => (markToken? c).isSome
  | name text => text.toList.all isPlain
  | number _ => !(cs.head?.any extendsNumber)

/-- All of the lexemes are what they stand for. -/
def areSound : List Lexeme → Bool
  | [] => true
  | lexeme :: lexemes => lexeme.isSound (lexemes.flatMap chars) && areSound lexemes

end Lexeme

theorem decode?_map_char (cs : List Char) : Piece.decode? (cs.map .char) = some cs := by
  induction cs with
  | nil => rfl
  | cons c cs ih =>
    rw [List.map_cons, Piece.decode?, ih]
    rfl

theorem literal_plain {text : String} (h : text.toList.all isPlain = true) :
    Literal ('"' :: (text.toList ++ ['"'])) (some text) := by
  have hparts : ∀ part ∈ text.toList.map fun c => ([c], Piece.char c),
      Piece.Written part.1 part.2 := by
    intro part hpart
    obtain ⟨c, hc, rfl⟩ := List.mem_map.mp hpart
    exact .plain (List.all_eq_true.mp h c hc)
  have hdecode : (Piece.decode? ((text.toList.map fun c => ([c], Piece.char c)).map (·.2))).map
      String.ofList = some text := by
    rw [List.map_map]
    change (Piece.decode? (text.toList.map .char)).map String.ofList = some text
    rw [decode?_map_char, Option.map_some, String.ofList_toList]
  have hliteral : Literal _ (some text) := .quoted hparts fun s => by
    rw [← Piece.map_decode?_eq_some_iff (by simp), hdecode]
  rwa [List.flatMap_map, List.flatMap_singleton'] at hliteral

/-- An object whose names are written without escapes. -/
theorem Spells.plainObject (entries : List (String × List Char × Value)) (hne : entries ≠ [])
    (hnames : ∀ entry ∈ entries, entry.1.toList.all isPlain = true)
    (hvalues : ∀ entry ∈ entries, Spells entry.2.1 entry.2.2) :
    Spells ('\x7b' :: ([','].intercalate (entries.map fun entry =>
        '"' :: (entry.1.toList ++ ['"']) ++ ':' :: entry.2.1) ++ ['\x7d']))
      (.object (entries.map fun entry => (some entry.1, entry.2.2))) := by
  have hobject := @Spells.object (entries.map fun entry =>
    ⟨'"' :: (entry.1.toList ++ ['"']), some entry.1, entry.2.1, entry.2.2⟩) (by simpa using hne)
    (List.forall_mem_map.mpr fun entry hentry => .string (literal_plain (hnames entry hentry)))
    (List.forall_mem_map.mpr hvalues)
  rwa [List.map_map, List.map_map] at hobject

/-- A lexeme that stands for a token is read as this token. -/
theorem Lexeme.scans {lexeme : Lexeme} {cs : List Char} {token : Token}
    (hsound : lexeme.isSound cs = true) (htoken : lexeme.token? = some token) :
    Scans lexeme.chars token cs := by
  cases lexeme with
  | gap text => cases htoken
  | mark c => exact scans_mark htoken cs
  | name text =>
    cases htoken
    exact scans_literal (literal_plain hsound) cs
  | number n =>
    cases htoken
    exact scans_numeral (.plain n) (by simpa [isSound] using hsound)

theorem Lexeme.cuts {lexemes : List Lexeme} (h : areSound lexemes = true) :
    Cuts (lexemes.flatMap chars) (lexemes.filterMap token?) := by
  induction lexemes with
  | nil => exact cuts_nil
  | cons lexeme lexemes ih =>
    obtain ⟨hsound, hrest⟩ := Bool.and_eq_true_iff.mp h
    rw [List.flatMap_cons]
    cases htoken : lexeme.token? with
    | some token =>
      rw [List.filterMap_cons_some htoken]
      exact (ih hrest).token (scans hsound htoken)
    | none =>
      rw [List.filterMap_cons_none htoken]
      -- Only a gap stands for nothing.
      cases lexeme with
      | gap text => exact (ih hrest).blanks hsound
      | mark c =>
        have hmark : (markToken? c).isSome = true := hsound
        rw [show markToken? c = none from htoken] at hmark
        cases hmark
      | name => cases htoken
      | number => cases htoken

/-- The tokens of a plain text. -/
theorem Lexeme.tokens?_eq {text : String} {lexemes : List Lexeme} (h : areSound lexemes = true)
    (htext : text.toList = lexemes.flatMap chars) :
    tokens? text = some (lexemes.filterMap token?) :=
  Cuts.tokens? (htext ▸ cuts h)

end SpriteField.Json
