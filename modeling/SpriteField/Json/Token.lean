/-!
# Tokens of a JSON text

A text is cut into tokens, with blanks allowed before and after each.  A number keeps its value only
if it is a plain natural number, and a string keeps its text only if its escapes name characters;
the other forms are well formed too, but stand for values of no use here.

A `\u` escape names one unit of sixteen bits.  Two units from the surrogate ranges, the high one
first, make one character, and a surrogate on its own names none.
-/

namespace SpriteField.Json

inductive Token where
  | openBrace
  | closeBrace
  | openBracket
  | closeBracket
  | colon
  | comma
  | null
  | bool (value : Bool)
  | number (value : Option Nat)
  | string (value : Option String)
deriving DecidableEq, Inhabited

def isBlank (c : Char) : Bool :=
  c = ' ' || c = '\t' || c = '\n' || c = '\r'

/-- A character of a string as it is written. -/
inductive Piece where
  | char (c : Char)
  | unit (u : Nat)
deriving DecidableEq, Inhabited

namespace Piece

/-- The value of a hexadecimal digit of either case. -/
def hexValue? (c : Char) : Option Nat :=
  if '0' ≤ c ∧ c ≤ '9' then some (c.toNat - '0'.toNat)
  else if 'a' ≤ c ∧ c ≤ 'f' then some (c.toNat - 'a'.toNat + 10)
  else if 'A' ≤ c ∧ c ≤ 'F' then some (c.toNat - 'A'.toNat + 10)
  else none

def ofHex? (a b c d : Char) : Option Piece := do
  return .unit ((((← hexValue? a) * 16 + (← hexValue? b)) * 16 + (← hexValue? c)) * 16
    + (← hexValue? d))

/-- What a backslash makes of the character behind it. -/
def ofEscape? : Char → Option Piece
  | '"' => some (.char '"')
  | '\\' => some (.char '\\')
  | '/' => some (.char '/')
  | 'b' => some (.char '\x08')
  | 'f' => some (.char '\x0c')
  | 'n' => some (.char '\n')
  | 'r' => some (.char '\r')
  | 't' => some (.char '\t')
  | _ => none

def isHighSurrogate (u : Nat) : Bool :=
  0xd800 ≤ u && u < 0xdc00

def isLowSurrogate (u : Nat) : Bool :=
  0xdc00 ≤ u && u < 0xe000

def decode? : List Piece → Option (List Char)
  | [] => some []
  | .char c :: pieces => (decode? pieces).map (c :: ·)
  | .unit high :: .unit low :: pieces =>
    if isHighSurrogate high then
      if isLowSurrogate low then
        let code := 0x10000 + (high - 0xd800) * 0x400 + (low - 0xdc00)
        (decode? pieces).map (Char.ofNat code :: ·)
      else none
    else if isLowSurrogate high then none
    else (decode? (.unit low :: pieces)).map (Char.ofNat high :: ·)
  | .unit u :: pieces =>
    if isHighSurrogate u || isLowSurrogate u then none
    else (decode? pieces).map (Char.ofNat u :: ·)

end Piece

/-- Reads a string up to its closing quote; `pieces` are those read so far, the last one first. -/
def scanString (pieces : List Piece) : List Char → Option (List Piece × List Char)
  | [] => none
  | '"' :: rest => some (pieces.reverse, rest)
  | '\\' :: 'u' :: a :: b :: c :: d :: rest =>
    match Piece.ofHex? a b c d with
    | some piece => scanString (piece :: pieces) rest
    | none => none
  | '\\' :: c :: rest =>
    match Piece.ofEscape? c with
    | some piece => scanString (piece :: pieces) rest
    | none => none
  | c :: rest => if c < ' ' then none else scanString (.char c :: pieces) rest

def digitsValue (digits : List Char) : Nat :=
  digits.foldl (fun n c => n * 10 + (c.toNat - '0'.toNat)) 0

def scanDigits (cs : List Char) : Option (List Char × List Char) :=
  let (digits, rest) := cs.span Char.isDigit
  if digits.isEmpty then none else some (digits, rest)

/-- Reads a point with digits behind it, if there is a point; answers whether there was one. -/
def scanFraction : List Char → Option (Bool × List Char)
  | '.' :: rest => (scanDigits rest).map fun (_, rest) => (true, rest)
  | rest => some (false, rest)

def scanExponent : List Char → Option (Bool × List Char)
  | c :: rest =>
    if c = 'e' ∨ c = 'E' then
      let unsigned := match rest with
        | '+' :: rest => rest
        | '-' :: rest => rest
        | rest => rest
      (scanDigits unsigned).map fun (_, rest) => (true, rest)
    else some (false, c :: rest)
  | [] => some (false, [])

/-- Reads a number without a sign: a whole part without needless zeros, a fraction, an exponent. -/
def scanUnsigned (cs : List Char) : Option (Option Nat × List Char) := do
  let (digits, rest) ← scanDigits cs
  if digits.head? = some '0' ∧ 1 < digits.length then none
  let (fractional, rest) ← scanFraction rest
  let (scaled, rest) ← scanExponent rest
  return (if fractional || scaled then none else some (digitsValue digits), rest)

def scanNumber : List Char → Option (Option Nat × List Char)
  | '-' :: rest => (scanUnsigned rest).map fun (_, rest) => (none, rest)
  | cs => scanUnsigned cs

/-- The token that the characters start with, and the characters behind it. -/
def scanToken : List Char → Option (Token × List Char)
  | '\x7b' :: rest => some (.openBrace, rest)
  | '\x7d' :: rest => some (.closeBrace, rest)
  | '[' :: rest => some (.openBracket, rest)
  | ']' :: rest => some (.closeBracket, rest)
  | ':' :: rest => some (.colon, rest)
  | ',' :: rest => some (.comma, rest)
  | 'n' :: 'u' :: 'l' :: 'l' :: rest => some (.null, rest)
  | 't' :: 'r' :: 'u' :: 'e' :: rest => some (.bool true, rest)
  | 'f' :: 'a' :: 'l' :: 's' :: 'e' :: rest => some (.bool false, rest)
  | '"' :: rest => (scanString [] rest).map fun (pieces, rest) =>
      (.string ((Piece.decode? pieces).map String.ofList), rest)
  | cs => (scanNumber cs).map fun (value, rest) => (.number value, rest)

/-- Reads tokens to the end of the text; `tokens` are those read so far, the last one first. -/
def scanTokens (tokens : List Token) : (fuel : Nat) → List Char → Option (List Token)
  | _, [] => some tokens.reverse
  | 0, _ :: _ => none
  | fuel + 1, c :: rest =>
    if isBlank c then scanTokens tokens fuel rest
    else
      match scanToken (c :: rest) with
      | some (token, rest) => scanTokens (token :: tokens) fuel rest
      | none => none

/-- The tokens of a text.  Each takes a character, so the text's length is enough fuel. -/
def tokens? (text : String) : Option (List Token) :=
  scanTokens [] text.length text.toList

end SpriteField.Json
