import Gamebook.Decimal.Shortest
import Gamebook.Json.Basic

/-!
Gamebook.Json.Printer — writing JSON documents.

Items and members stand on lines of their own, two spaces further in than the brackets around them;
an empty list or object stays on one line. In strings, quotation marks, backslashes and control
characters are escaped and nothing else.
-/

namespace Gamebook.Json

/-- A hexadecimal digit. -/
def hexDigit (n : Nat) : Char := Nat.digitChar n

/-- One character of a string. -/
def escapeChar (c : Char) : List Char :=
  if c = '"' then ['\\', '"']
  else if c = '\\' then ['\\', '\\']
  else if c = '\x08' then ['\\', 'b']
  else if c = '\x0c' then ['\\', 'f']
  else if c = '\n' then ['\\', 'n']
  else if c = '\r' then ['\\', 'r']
  else if c = '\t' then ['\\', 't']
  else if c.toNat < 0x20 then
    ['\\', 'u', '0', '0', hexDigit (c.toNat / 16), hexDigit (c.toNat % 16)]
  else [c]

/-- A string in quotation marks. -/
def stringText (s : String) : List Char := ['"'] ++ s.toList.flatMap escapeChar ++ ['"']

/-- A number. -/
def numberText : JsonNumber → List Char
  | .int (.ofNat n) => Nat.toDigits 10 n
  | .int (.negSucc n) => '-' :: Nat.toDigits 10 (n + 1)
  | .float x => Decimal.floatText x

/-- The start of a new line, `indent` levels in. -/
def newLine (indent : Nat) : List Char := '\n' :: List.replicate (2 * indent) ' '

/-- Pieces between brackets, each on a line of its own. -/
def block (opening closing : Char) (indent : Nat) (pieces : List (List Char)) : List Char :=
  match pieces with
  | [] => [opening, closing]
  | piece :: rest =>
    [opening] ++ newLine (indent + 1) ++ piece ++
      rest.flatMap (fun p => ',' :: newLine (indent + 1) ++ p) ++ newLine indent ++ [closing]

mutual

/-- A value whose first line starts `indent` levels in. -/
def valueText (indent : Nat) : Json → List Char
  | null => ['n', 'u', 'l', 'l']
  | bool true => ['t', 'r', 'u', 'e']
  | bool false => ['f', 'a', 'l', 's', 'e']
  | num n => numberText n
  | str s => stringText s
  | arr items => block '[' ']' indent (itemTexts (indent + 1) items)
  | obj members => block '\x7b' '\x7d' indent (memberTexts (indent + 1) members)

/-- The items of a list. -/
def itemTexts (indent : Nat) : List Json → List (List Char)
  | [] => []
  | v :: vs => valueText indent v :: itemTexts indent vs

/-- The members of an object. -/
def memberTexts (indent : Nat) : List (String × Json) → List (List Char)
  | [] => []
  | (key, v) :: ms =>
    (stringText key ++ [':', ' '] ++ valueText indent v) :: memberTexts indent ms

end

/-- The value as a document, with a line feed at the end. -/
def document (v : Json) : String := String.ofList (valueText 0 v ++ ['\n'])

end Gamebook.Json
