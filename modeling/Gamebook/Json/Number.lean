import Gamebook.Json.Basic
import Gamebook.Json.Fault

/-!
Gamebook.Json.Number — reading the numbers of a JSON document.

A whole number that fits in 64 bits stays exact. Any other number becomes a double: its
significand is collected in 64 bits, as many digits as fit, and scaled by a power of ten, with one
rounding for the significand and one for the scaling. Minus zero is a double. A number beyond the
largest double is a fault.
-/

namespace Gamebook.Json

/-- The result of reading: a value, or where the reader stopped. -/
abbrev Attempt := Except Stop

/-- Stop where the unread text starts. -/
def stopAt {α : Type} (fault : Fault) (unread : List Char) : Attempt α :=
  .error ⟨fault, unread, 0⟩

/-- Stop one byte behind the start of the unread text. -/
def stopBehind {α : Type} (fault : Fault) (unread : List Char) : Attempt α :=
  .error ⟨fault, unread, if unread = [] then 0 else 1⟩

namespace Number

/-- The largest significand, and the largest whole number. -/
def maxSignificand : Nat := 18446744073709551615

/-- The largest magnitude of a negative whole number. -/
def maxMagnitude : Nat := 9223372036854775808

/-- The largest exponent that is written out. -/
def maxExponent : Nat := 2147483647

/-- The value of a digit. -/
def digitValue (c : Char) : Nat := c.toNat - '0'.toNat

/-- The text starts with a digit. -/
def startsDigit : List Char → Bool
  | c :: _ => c.isDigit
  | [] => false

/-- Append digits to the significand `m` as long as it fits: the significand, the number of digits
and the rest. -/
def takeDigits (m : Nat) : List Char → Nat × Nat × List Char
  | [] => (m, 0, [])
  | c :: s =>
    if c.isDigit && m * 10 + digitValue c ≤ maxSignificand then
      let (n, count, rest) := takeDigits (m * 10 + digitValue c) s
      (n, count + 1, rest)
    else (m, 0, c :: s)

/-- A power of ten up to the 308th. -/
def powerOfTen (n : Nat) : Float := Float.ofScientific 1 false n

/-- Divide by ten, `n` times. -/
def scaleDown (x : Float) (n : Nat) : Float :=
  if n ≤ 308 then x / powerOfTen n
  else if x == 0 then x
  else scaleDown (x / powerOfTen 308) (n - 308)
termination_by n
decreasing_by omega

/-- The double with significand `m` and a decimal exponent; none beyond the largest double. -/
def scaled? (m : Nat) (exponent : Int) : Option Float :=
  let x := Float.ofNat m
  if exponent < 0 then some (scaleDown x exponent.natAbs)
  else if exponent.natAbs ≤ 308 then
    let y := x * powerOfTen exponent.natAbs
    if y.isInf then none else some y
  else if m = 0 then some x else none

/-- A double with its sign. -/
def signed (negative : Bool) (x : Float) : JsonNumber := .float (if negative then -x else x)

/-- The number with significand `m` and a decimal exponent; the text behind it is `rest`. -/
def finish (negative : Bool) (m : Nat) (exponent : Int) (rest : List Char) :
    Attempt (JsonNumber × List Char) :=
  match scaled? m exponent with
  | some x => .ok (signed negative x, rest)
  | none => stopAt .numberOutOfRange rest

/-- Append digits to the exponent `e`: the exponent and the rest. No exponent if it gets too big;
the rest then starts behind the digit with which it does. -/
def takeExponent (e : Nat) : List Char → Option Nat × List Char
  | [] => (some e, [])
  | c :: s =>
    if c.isDigit then
      if e * 10 + digitValue c ≤ maxExponent then takeExponent (e * 10 + digitValue c) s
      else (none, s)
    else (some e, c :: s)

/-- The sign of an exponent, and the text behind it. -/
def exponentSign : List Char → Bool × List Char
  | '+' :: s => (false, s)
  | '-' :: s => (true, s)
  | s => (false, s)

/-- Read the exponent behind `e`. An exponent that is too big makes the number zero, unless it makes
it too big. -/
def readExponent (negative : Bool) (m : Nat) (exponent : Int) (s : List Char) :
    Attempt (JsonNumber × List Char) :=
  let (down, digits) := exponentSign s
  match digits with
  | [] => stopAt .endInValue []
  | c :: _ =>
    if c.isDigit then
      match takeExponent 0 digits with
      | (some e, rest) => finish negative m (if down then exponent - e else exponent + e) rest
      | (none, rest) =>
        if m ≠ 0 ∧ !down then stopAt .numberOutOfRange rest
        else .ok (signed negative 0, rest.dropWhile Char.isDigit)
    else stopBehind .invalidNumber digits

/-- Read on behind the digits of a number that is a double. -/
def readDoubleTail (negative : Bool) (m : Nat) (exponent : Int) (s : List Char) :
    Attempt (JsonNumber × List Char) :=
  match s with
  | 'e' :: rest => readExponent negative m exponent rest
  | 'E' :: rest => readExponent negative m exponent rest
  | _ => finish negative m exponent s

/-- Read the digits behind a decimal point, one at least. Digits that no longer fit are dropped. -/
def readFraction (negative : Bool) (m : Nat) (exponent : Int) (s : List Char) :
    Attempt (JsonNumber × List Char) :=
  let (n, count, rest) := takeDigits m s
  if startsDigit rest then
    readDoubleTail negative n (exponent - count) (rest.dropWhile Char.isDigit)
  else if count = 0 then
    if rest = [] then stopAt .endInValue [] else stopBehind .invalidNumber rest
  else readDoubleTail negative n (exponent - count) rest

/-- The whole number with this magnitude. -/
def whole (negative : Bool) (m : Nat) : JsonNumber :=
  if !negative then .int m
  else if m = 0 ∨ maxMagnitude < m then .float (-Float.ofNat m)
  else .int (-m)

/-- Read on behind a significand that fits. -/
def readTail (negative : Bool) (m : Nat) (s : List Char) :
    Attempt (JsonNumber × List Char) :=
  match s with
  | '.' :: rest => readFraction negative m 0 rest
  | 'e' :: rest => readExponent negative m 0 rest
  | 'E' :: rest => readExponent negative m 0 rest
  | _ => .ok (whole negative m, s)

/-- Read on behind a significand that the next digit does not fit in. -/
def readLong (negative : Bool) (m : Nat) (s : List Char) :
    Attempt (JsonNumber × List Char) :=
  let more := s.takeWhile Char.isDigit
  match s.dropWhile Char.isDigit with
  | '.' :: rest => readFraction negative m more.length rest
  | rest => readDoubleTail negative m more.length rest

/-- Read a number behind its sign. No number but zero starts with a zero. -/
def read (negative : Bool) : List Char → Attempt (JsonNumber × List Char)
  | [] => stopAt .endInValue []
  | c :: s =>
    if c = '0' then
      if startsDigit s then stopBehind .invalidNumber s else readTail negative 0 s
    else if c.isDigit then
      let (m, _, rest) := takeDigits 0 (c :: s)
      if startsDigit rest then readLong negative m rest else readTail negative m rest
    else stopBehind .invalidNumber (c :: s)

end Number

end Gamebook.Json
