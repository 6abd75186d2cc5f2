import SpriteField.Json.Value
import Mathlib.Tactic

/-!
# JSON texts

The texts that stand for a value, described without the machine that reads them.  Blanks may be
written before and after each value and each name.  A number stands for itself only if it is written
as a plain natural number.

Escapes in a string name units of UTF-16.  If the units do not make up characters, the string is
well formed, but has no text.
-/

namespace SpriteField.Json

/-! ## Strings -/

/-- A character of a string that stands for itself. -/
def isPlain (c : Char) : Bool :=
  c != '"' && c != '\\' && !(c < ' ')

/-- What may be written behind a backslash, and what it stands for. -/
def escapes : List (Char × Char) :=
  [('"', '"'), ('\\', '\\'), ('/', '/'), ('b', '\x08'), ('f', '\x0c'), ('n', '\n'), ('r', '\r'),
    ('t', '\t')]

/-- A hexadecimal digit of either case. -/
def IsHexDigit (c : Char) (n : Nat) : Prop :=
  n < 16 ∧ (c = Nat.digitChar n ∨ c = (Nat.digitChar n).toUpper)

/-- The units of a character in UTF-16. -/
def utf16 (c : Char) : List Nat :=
  if c.toNat < 0x10000 then [c.toNat]
  else [0xd800 + (c.toNat - 0x10000) / 0x400, 0xdc00 + (c.toNat - 0x10000) % 0x400]

namespace Piece

inductive Written : List Char → Piece → Prop
  | plain {c : Char} (h : isPlain c = true) : Written [c] (.char c)
  | escape {c d : Char} (h : (c, d) ∈ escapes) : Written ['\\', c] (.char d)
  | unit {a b c d : Char} {i j k l : Nat} (ha : IsHexDigit a i) (hb : IsHexDigit b j)
      (hc : IsHexDigit c k) (hd : IsHexDigit d l) :
      Written ['\\', 'u', a, b, c, d] (.unit (i * 0x1000 + j * 0x100 + k * 0x10 + l))

/-- The pieces make up the text. -/
inductive Denotes : List Piece → List Char → Prop
  | nil : Denotes [] []
  | char {pieces : List Piece} {cs : List Char} (c : Char) (h : Denotes pieces cs) :
      Denotes (.char c :: pieces) (c :: cs)
  | units {pieces : List Piece} {cs : List Char} (c : Char) (h : Denotes pieces cs) :
      Denotes ((utf16 c).map .unit ++ pieces) (c :: cs)

end Piece

/-- A string as it is written, and its text, if it has one. -/
inductive Literal : List Char → Option String → Prop
  | quoted {parts : List (List Char × Piece)} {text : Option String}
      (hparts : ∀ part ∈ parts, Piece.Written part.1 part.2)
      (htext : ∀ s, text = some s ↔ Piece.Denotes (parts.map (·.2)) s.toList) :
      Literal ('"' :: (parts.flatMap (·.1) ++ ['"'])) text

/-! ## Numbers -/

def isDigits (cs : List Char) : Bool :=
  !cs.isEmpty && cs.all Char.isDigit

inductive Fraction : List Char → Prop
  | absent : Fraction []
  | digits {digits : List Char} (h : isDigits digits = true) : Fraction ('.' :: digits)

inductive Exponent : List Char → Prop
  | absent : Exponent []
  | digits {mark : Char} {sign digits : List Char} (hmark : mark ∈ ['e', 'E'])
      (hsign : sign ∈ [[], ['+'], ['-']]) (h : isDigits digits = true) :
      Exponent (mark :: (sign ++ digits))

/-- A number as it is written, and its value, if it is a plain natural number. -/
inductive Numeral : List Char → Option Nat → Prop
  | plain (n : Nat) : Numeral (Nat.toDigits 10 n) (some n)
  | scaled (n : Nat) {fraction exponent : List Char} (hfraction : Fraction fraction)
      (hexponent : Exponent exponent) (h : fraction ++ exponent ≠ []) :
      Numeral (Nat.toDigits 10 n ++ fraction ++ exponent) none
  | negative (n : Nat) {fraction exponent : List Char} (hfraction : Fraction fraction)
      (hexponent : Exponent exponent) :
      Numeral ('-' :: (Nat.toDigits 10 n ++ fraction ++ exponent)) none

/-! ## Values -/

def blanks : List Char :=
  [' ', '\t', '\n', '\r']

/-- A member of an object as it is written, with its name and its value. -/
structure Entry where
  nameChars : List Char
  name : Option String
  valueChars : List Char
  value : Value

namespace Entry

def chars (entry : Entry) : List Char :=
  entry.nameChars ++ ':' :: entry.valueChars

def member (entry : Entry) : Option String × Value :=
  (entry.name, entry.value)

end Entry

/-- The characters stand for the value. -/
inductive Spells : List Char → Value → Prop
  | null : Spells ['n', 'u', 'l', 'l'] .null
  | boolTrue : Spells ['t', 'r', 'u', 'e'] (.bool true)
  | boolFalse : Spells ['f', 'a', 'l', 's', 'e'] (.bool false)
  | number {cs : List Char} {value : Option Nat} (h : Numeral cs value) : Spells cs (.number value)
  | string {cs : List Char} {text : Option String} (h : Literal cs text) : Spells cs (.string text)
  | emptyList {gap : List Char} (h : ∀ c ∈ gap, c ∈ blanks) :
      Spells ('[' :: (gap ++ [']'])) (.list [])
  | list {items : List (List Char × Value)} (hne : items ≠ [])
      (h : ∀ item ∈ items, Spells item.1 item.2) :
      Spells ('[' :: ([','].intercalate (items.map (·.1)) ++ [']'])) (.list (items.map (·.2)))
  | emptyObject {gap : List Char} (h : ∀ c ∈ gap, c ∈ blanks) :
      Spells ('\x7b' :: (gap ++ ['\x7d'])) (.object [])
  | object {entries : List Entry} (hne : entries ≠ [])
      (hnames : ∀ entry ∈ entries, Spells entry.nameChars (.string entry.name))
      (hvalues : ∀ entry ∈ entries, Spells entry.valueChars entry.value) :
      Spells ('\x7b' :: ([','].intercalate (entries.map (·.chars)) ++ ['\x7d']))
        (.object (entries.map (·.member)))
  | before {c : Char} {cs : List Char} {value : Value} (hc : c ∈ blanks) (h : Spells cs value) :
      Spells (c :: cs) value
  | after {c : Char} {cs : List Char} {value : Value} (hc : c ∈ blanks) (h : Spells cs value) :
      Spells (cs ++ [c]) value

end SpriteField.Json
