import Gamebook.Text.Offset

/-!
Gamebook.Json.Fault — why a text is not JSON, and where.

A reader stops at the first fault. It leaves the text that it has not read, from which the place of
the fault is found: lines count from 1, and the column is the number of bytes on the line in front.
-/

namespace Gamebook.Json

/-- What is wrong with a text that is not JSON. -/
inductive Fault where
  /-- The text ended where a value should be, or inside one. -/
  | endInValue
  /-- The text ended inside a list. -/
  | endInList
  /-- The text ended inside an object. -/
  | endInObject
  /-- The text ended inside a string. -/
  | endInString
  /-- No colon behind a key. -/
  | expectedColon
  /-- Neither a comma nor the end behind an item. -/
  | expectedListCommaOrEnd
  /-- Neither a comma nor the end behind a member. -/
  | expectedObjectCommaOrEnd
  /-- A word that starts like `null`, `true` or `false` and goes on otherwise. -/
  | expectedIdent
  /-- No value starts here. -/
  | expectedValue
  /-- An unknown escape. -/
  | invalidEscape
  /-- A number that is not written as one. -/
  | invalidNumber
  /-- A number that is too big for a double. -/
  | numberOutOfRange
  /-- A control character inside a string. -/
  | controlCharacter
  /-- A key that is not a string. -/
  | keyMustBeString
  /-- Half of a pair of surrogate escapes. -/
  | loneSurrogate
  /-- A comma in front of the end. -/
  | trailingComma
  /-- Text behind the value. -/
  | trailingCharacters
  /-- No second half behind the first one of a pair of surrogate escapes. -/
  | endOfHexEscape
  /-- Too many lists and objects inside each other. -/
  | recursionLimit
deriving DecidableEq, Repr

namespace Fault

/-- The text ended too early. -/
def isEnd : Fault → Bool
  | endInValue | endInList | endInObject | endInString => true
  | _ => false

/-- What is said about the fault. -/
def message : Fault → String
  | endInValue => "EOF while parsing a value"
  | endInList => "EOF while parsing a list"
  | endInObject => "EOF while parsing an object"
  | endInString => "EOF while parsing a string"
  | expectedColon => "expected `:`"
  | expectedListCommaOrEnd => "expected `,` or `]`"
  | expectedObjectCommaOrEnd => "expected `,` or `\x7d`"
  | expectedIdent => "expected ident"
  | expectedValue => "expected value"
  | invalidEscape => "invalid escape"
  | invalidNumber => "invalid number"
  | numberOutOfRange => "number out of range"
  | controlCharacter => "control character (\\u0000-\\u001F) found while parsing a string"
  | keyMustBeString => "key must be a string"
  | loneSurrogate => "lone leading surrogate in hex escape"
  | trailingComma => "trailing comma"
  | trailingCharacters => "trailing characters"
  | endOfHexEscape => "unexpected end of hex escape"
  | recursionLimit => "recursion limit exceeded"

end Fault

/-- Where a reader stopped. -/
structure Stop where
  /-- Why. -/
  fault : Fault
  /-- The text that was not read. -/
  unread : List Char
  /-- How many bytes further the fault stands, if the text goes on so far. -/
  ahead : Nat

/-- The line and the column at a byte offset of a text; `line` and `column` are those at its
start. -/
def placeAt (line column : Nat) : Nat → List Char → Nat × Nat
  | 0, _ => (line, column)
  | _, [] => (line, column)
  | n + 1, c :: s =>
    if c = '\n' then placeAt (line + 1) 0 n s
    else if c.utf8Size ≤ n + 1 then placeAt line (column + c.utf8Size) (n + 1 - c.utf8Size) s
    else (line, column + (n + 1))

/-- A fault with its place. -/
structure SyntaxError where
  /-- What is wrong. -/
  fault : Fault
  /-- The number of the line. -/
  line : Nat
  /-- The number of bytes in front of the place on its line. -/
  column : Nat
deriving DecidableEq, Repr

namespace SyntaxError

/-- The error that stopped a reader of `text`. -/
def ofStop (text : List Char) (stop : Stop) : SyntaxError :=
  let offset := Text.byteLength text - Text.byteLength stop.unread + stop.ahead
  let place := placeAt 1 0 offset text
  ⟨stop.fault, place.1, place.2⟩

/-- What is said about the error. -/
def message (e : SyntaxError) : String :=
  e.fault.message ++ " at line " ++ toString e.line ++ " column " ++ toString e.column

end SyntaxError

end Gamebook.Json
