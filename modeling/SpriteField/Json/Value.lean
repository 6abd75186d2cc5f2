import SpriteField.Json.Token

/-!
# JSON values

A value is read from its tokens by a machine that takes one token at a time.  Its stack holds the
lists and objects that have been opened and not yet closed, so values may nest to any depth.
-/

namespace SpriteField.Json

inductive Value where
  | null
  | bool (value : Bool)
  | number (value : Option Nat)
  | string (value : Option String)
  | list (items : List Value)
  | object (members : List (Option String × Value))
deriving Inhabited

/-- A list or an object that is still open, its parts read so far with the last one first. -/
inductive Frame where
  | list (items : List Value)
  | object (members : List (Option String × Value))
  | member (members : List (Option String × Value)) (name : Option String)
deriving Inhabited

/-- What the machine is waiting for. -/
inductive Reading where
  | awaitValue (stack : List Frame)
  /-- A value, or the end of the list just opened. -/
  | awaitFirstItem (stack : List Frame)
  | awaitName (members : List (Option String × Value)) (stack : List Frame)
  /-- A member's name, or the end of the object just opened. -/
  | awaitFirstName (stack : List Frame)
  | awaitColon (stack : List Frame)
  /-- A comma, or the end of the innermost list or object. -/
  | awaitSeparator (stack : List Frame)
  | done (value : Value)
deriving Inhabited

namespace Reading

def completed (value : Value) : List Frame → Option Reading
  | [] => some (.done value)
  | .list items :: stack => some (.awaitSeparator (.list (value :: items) :: stack))
  | .member members name :: stack =>
    some (.awaitSeparator (.object ((name, value) :: members) :: stack))
  | .object _ :: _ => none

def startValue (stack : List Frame) : Token → Option Reading
  | .openBrace => some (.awaitFirstName stack)
  | .openBracket => some (.awaitFirstItem stack)
  | .null => completed .null stack
  | .bool value => completed (.bool value) stack
  | .number value => completed (.number value) stack
  | .string value => completed (.string value) stack
  | _ => none

def step : Reading → Token → Option Reading
  | .awaitValue stack, token => startValue stack token
  | .awaitFirstItem stack, .closeBracket => completed (.list []) stack
  | .awaitFirstItem stack, token => startValue (.list [] :: stack) token
  | .awaitName members stack, .string name => some (.awaitColon (.member members name :: stack))
  | .awaitFirstName stack, .closeBrace => completed (.object []) stack
  | .awaitFirstName stack, .string name => some (.awaitColon (.member [] name :: stack))
  | .awaitColon stack, .colon => some (.awaitValue stack)
  | .awaitSeparator (.list items :: stack), .comma => some (.awaitValue (.list items :: stack))
  | .awaitSeparator (.list items :: stack), .closeBracket => completed (.list items.reverse) stack
  | .awaitSeparator (.object members :: stack), .comma => some (.awaitName members stack)
  | .awaitSeparator (.object members :: stack), .closeBrace =>
    completed (.object members.reverse) stack
  | _, _ => none

def value? : Reading → Option Value
  | .done value => some value
  | _ => none

end Reading

namespace Value

def ofTokens? (tokens : List Token) : Option Value :=
  (tokens.foldlM Reading.step (.awaitValue [])).bind Reading.value?

def ofText? (text : String) : Option Value :=
  (tokens? text).bind ofTokens?

/-- The value as a natural number that fits 32 bits. -/
def word? : Value → Option Nat
  | .number (some n) => if n < 0x100000000 then some n else none
  | _ => none

/-- The value of the member with the given name; a name that occurs twice is refused. -/
def member? (members : List (Option String × Value)) (name : String) : Option (Option Value) :=
  match members.filter (·.1 == some name) with
  | [] => some none
  | [(_, value)] => some (some value)
  | _ => none

/-- The values of the named fields, where a field may be missing.  A record is an object, in which
other members are ignored, or a list of the first fields in the order of their names. -/
def record? (names : List String) : Value → Option (List (Option Value))
  | .object members =>
    if members.all (·.1.isSome) then names.mapM (member? members) else none
  | .list items =>
    if items.length ≤ names.length then
      some (items.map some ++ List.replicate (names.length - items.length) none)
    else none
  | _ => none

end Value

end SpriteField.Json
