import Gamebook.Json.Number

/-!
Gamebook.Json.Reader — reading JSON documents.

The format is strict: only spaces, tabs, line feeds and carriage returns may stand between tokens,
no comma may stand in front of an end, nothing may follow the value, and lists and objects may
stand 127 deep inside each other. The first fault stops the reader.
-/

namespace Gamebook.Json

/-- What may stand between tokens. -/
def isGap (c : Char) : Bool := c == ' ' || c == '\t' || c == '\n' || c == '\r'

/-- The text without leading gaps. -/
def skipGaps (s : List Char) : List Char := s.dropWhile isGap

/-! ## Words and strings -/

/-- Read the rest of a word. -/
def readWord : List Char → List Char → Attempt (List Char)
  | [], s => .ok s
  | _ :: _, [] => stopAt .endInValue []
  | a :: word, c :: s => if a = c then readWord word s else stopBehind .expectedIdent (c :: s)

/-- The value of a hexadecimal digit. -/
def hexValue? (c : Char) : Option Nat :=
  if c.isDigit then some (c.toNat - '0'.toNat)
  else if 'a' ≤ c ∧ c ≤ 'f' then some (c.toNat - 'a'.toNat + 10)
  else if 'A' ≤ c ∧ c ≤ 'F' then some (c.toNat - 'A'.toNat + 10)
  else none

/-- The value of the four hexadecimal digits at the start of the text. -/
def readHex (s : List Char) : Attempt Nat :=
  let digits := s.take 4
  if Text.byteLength digits < 4 then stopAt .endInString []
  else match digits.mapM hexValue? with
    | some ds => .ok (ds.foldl (fun n d => 16 * n + d) 0)
    | none => .error ⟨.invalidEscape, s, 4⟩

/-- The unit is the second half of a pair. -/
def isLow (unit : Nat) : Bool := 0xDC00 ≤ unit && unit ≤ 0xDFFF

/-- The unit is the first half of a pair. -/
def isHigh (unit : Nat) : Bool := 0xD800 ≤ unit && unit ≤ 0xDBFF

/-- The character that a pair of units stands for. -/
def pairChar (high low : Nat) : Char :=
  Char.ofNat (0x10000 + (high - 0xD800) * 0x400 + (low - 0xDC00))

/-- Read what follows the first half of a pair, the escape of the second half: the character that
both stand for. -/
def readLowHalf (high : Nat) (s : List Char) : Attempt Char :=
  match s with
  | [] => stopAt .endInString []
  | '\\' :: [] => stopAt .endInString []
  | '\\' :: 'u' :: rest => do
    let low ← readHex rest
    if isLow low then .ok (pairChar high low) else stopAt .loneSurrogate (rest.drop 4)
  | '\\' :: rest => stopBehind .endOfHexEscape rest
  | _ => stopBehind .endOfHexEscape s

/-- Read what follows `\u`, one unit, or two that make up a pair: the character, and the number of
characters that were read. -/
def readUnicode (s : List Char) : Attempt (Char × Nat) := do
  let unit ← readHex s
  if isLow unit then stopAt .loneSurrogate (s.drop 4)
  else if isHigh unit then
    let c ← readLowHalf unit (s.drop 4)
    .ok (c, 10)
  else .ok (Char.ofNat unit, 4)

/-- The character that a letter behind a backslash stands for. -/
def simpleEscape? (c : Char) : Option Char :=
  if c = '"' ∨ c = '\\' ∨ c = '/' then some c
  else if c = 'b' then some '\x08'
  else if c = 'f' then some '\x0c'
  else if c = 'n' then some '\n'
  else if c = 'r' then some '\r'
  else if c = 't' then some '\t'
  else none

/-- Read what follows a backslash: the character, and the number of characters that were read. -/
def readEscape : List Char → Attempt (Char × Nat)
  | [] => stopAt .endInString []
  | c :: s =>
    if c = 'u' then do
      let (d, count) ← readUnicode s
      .ok (d, count + 1)
    else match simpleEscape? c with
      | some d => .ok (d, 1)
      | none => stopBehind .invalidEscape (c :: s)

/-- Read a string behind its opening quotation mark. The first `skip` characters of the text
belong to an escape that has been read. -/
def readStringFrom (skip : Nat) : List Char → Attempt (List Char × List Char)
  | [] => stopAt .endInString []
  | c :: s => match skip with
    | k + 1 => readStringFrom k s
    | 0 =>
      if c = '"' then .ok ([], s)
      else if c = '\\' then do
        let (d, count) ← readEscape s
        let (cs, rest) ← readStringFrom count s
        .ok (d :: cs, rest)
      else if c.toNat < 0x20 then stopBehind .controlCharacter (c :: s)
      else do
        let (cs, rest) ← readStringFrom 0 s
        .ok (c :: cs, rest)

/-- Read a string behind its opening quotation mark. -/
def readString (s : List Char) : Attempt (String × List Char) := do
  let (cs, rest) ← readStringFrom 0 s
  .ok (String.ofList cs, rest)

/-! ## Lists and objects

Both are read item by item. Each item takes one character at least, so a number that is greater than
the length of the document bounds how many there are; `fuel` is such a number. -/

/-- A reader of values. -/
abbrev ValueReader := List Char → Attempt (Json × List Char)

/-- Read the items of a list behind its opening bracket, or behind the items before. -/
def readItems (item : ValueReader) : (fuel : Nat) → (first : Bool) → List Char →
    Attempt (List Json × List Char)
  | 0, _, _ => stopAt .endInList []
  | fuel + 1, first, s =>
    let next (t : List Char) : Attempt (List Json × List Char) := do
      let (v, rest) ← item t
      let (vs, rest) ← readItems item fuel false rest
      .ok (v :: vs, rest)
    match skipGaps s with
    | [] => stopAt .endInList []
    | ']' :: rest => .ok ([], rest)
    | c :: t =>
      if first then next (c :: t)
      else if c = ',' then
        match skipGaps t with
        | [] => stopAt .endInValue []
        | ']' :: u => stopBehind .trailingComma (']' :: u)
        | u => next u
      else stopBehind .expectedListCommaOrEnd (c :: t)

/-- Read a member of an object behind the quotation mark that opens its key. -/
def readMember (item : ValueReader) (s : List Char) :
    Attempt ((String × Json) × List Char) := do
  let (key, rest) ← readString s
  match skipGaps rest with
  | [] => stopAt .endInObject []
  | ':' :: rest =>
    let (v, rest) ← item rest
    .ok ((key, v), rest)
  | rest => stopBehind .expectedColon rest

/-- Read the members of an object behind its opening brace, or behind the members before. -/
def readMembers (item : ValueReader) : (fuel : Nat) → (first : Bool) → List Char →
    Attempt (List (String × Json) × List Char)
  | 0, _, _ => stopAt .endInObject []
  | fuel + 1, first, s =>
    let next (t : List Char) : Attempt (List (String × Json) × List Char) := do
      let (m, rest) ← readMember item t
      let (ms, rest) ← readMembers item fuel false rest
      .ok (m :: ms, rest)
    match skipGaps s with
    | [] => stopAt .endInObject []
    | '\x7d' :: rest => .ok ([], rest)
    | c :: t =>
      if first then
        if c = '"' then next t else stopBehind .keyMustBeString (c :: t)
      else if c = ',' then
        match skipGaps t with
        | [] => stopAt .endInValue []
        | '"' :: u => next u
        | '\x7d' :: u => stopBehind .trailingComma ('\x7d' :: u)
        | u => stopBehind .keyMustBeString u
      else stopBehind .expectedObjectCommaOrEnd (c :: t)

/-! ## Values and documents -/

/-- Read a value in which lists and objects may stand `depth` deep inside each other. -/
def readValue (fuel depth : Nat) (s : List Char) : Attempt (Json × List Char) :=
  match skipGaps s with
  | [] => stopAt .endInValue []
  | c :: t =>
    if c = 'n' then do
      let rest ← readWord ['u', 'l', 'l'] t
      .ok (.null, rest)
    else if c = 't' then do
      let rest ← readWord ['r', 'u', 'e'] t
      .ok (.bool true, rest)
    else if c = 'f' then do
      let rest ← readWord ['a', 'l', 's', 'e'] t
      .ok (.bool false, rest)
    else if c = '-' then do
      let (n, rest) ← Number.read true t
      .ok (.num n, rest)
    else if c.isDigit then do
      let (n, rest) ← Number.read false (c :: t)
      .ok (.num n, rest)
    else if c = '"' then do
      let (text, rest) ← readString t
      .ok (.str text, rest)
    else if c = '[' then
      match depth with
      | 0 => stopBehind .recursionLimit (c :: t)
      | d + 1 => do
        let (items, rest) ← readItems (readValue fuel d) fuel true t
        .ok (.arr items, rest)
    else if c = '\x7b' then
      match depth with
      | 0 => stopBehind .recursionLimit (c :: t)
      | d + 1 => do
        let (members, rest) ← readMembers (readValue fuel d) fuel true t
        .ok (.obj members, rest)
    else stopBehind .expectedValue (c :: t)

/-- How deep lists and objects may stand inside each other. -/
def maxDepth : Nat := 127

/-- Read a document: one value with nothing but gaps around it. -/
def readDocument (s : List Char) : Attempt Json := do
  let (v, rest) ← readValue (s.length + 1) maxDepth s
  match skipGaps rest with
  | [] => .ok v
  | rest => stopBehind .trailingCharacters rest

/-- Read the JSON document that a text holds. -/
def read (text : String) : Except SyntaxError Json :=
  (readDocument text.toList).mapError (SyntaxError.ofStop text.toList)

end Gamebook.Json
