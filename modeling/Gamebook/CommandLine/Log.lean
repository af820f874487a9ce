import Gamebook.Text.Quoted

/-!
Gamebook.CommandLine.Log — the lines that a run writes to the log.

A log may be read on a terminal, and messages quote scripts and paths. So the control characters on
which a terminal acts are written as escapes in a message (`LogLine.shown`); line feeds and the
other controls stand as they are. The values of fields come written already.
-/

namespace Gamebook

/-- A warning for the log, with its fields. -/
structure LogLine where
  /-- What is said. -/
  message : String
  /-- Names and written values. -/
  fields : List (String × String)
deriving DecidableEq, Repr

namespace LogLine

/-- The ASCII controls that a terminal acts on: bell, backspace, form feed, escape and delete. -/
def terminalControls : List Char := ['\x07', '\x08', '\x0c', '\x1b', '\x7f']

/-- A control of the second block of controls, U+0080 to U+009F. -/
def isSecondaryControl (c : Char) : Bool := 0x80 ≤ c.toNat && c.toNat ≤ 0x9F

/-- The code point of an ASCII character in two hexadecimal digits, as an escape. -/
def byteEscape (c : Char) : List Char :=
  ['\\', 'x', Nat.digitChar (c.toNat / 16), Nat.digitChar (c.toNat % 16)]

/-- One character of a message. -/
def shownChar (c : Char) : List Char :=
  if c ∈ terminalControls then byteEscape c
  else if isSecondaryControl c then Text.codePointEscape c
  else [c]

/-- A message, as the log shows it. -/
def shown (message : String) : String := String.ofList (message.toList.flatMap shownChar)

/-- The line in the log. -/
def text (l : LogLine) : String :=
  "WARN gamebook_script: " ++ shown l.message ++
    String.join (l.fields.map fun (name, value) => " " ++ name ++ "=" ++ value)

end LogLine

/-- Which lines the log shows. -/
inductive LogLevel where
  /-- None. -/
  | off
  /-- Errors. -/
  | error
  /-- Errors and warnings. -/
  | warn
deriving DecidableEq, Repr

/-- The level with this name; warnings are shown unless the name says otherwise. -/
def LogLevel.ofName (name : String) : LogLevel :=
  if name = "off" then off else if name = "error" then error else warn

end Gamebook
