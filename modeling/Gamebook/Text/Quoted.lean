import Gamebook.Text.Unprintable

/-!
Gamebook.Text.Quoted — texts in quotation marks, as messages show them.

A quotation mark and a backslash get a backslash, line feeds and their like are written as escapes,
and so is every other character that cannot stand for itself.
-/

namespace Gamebook.Text

/-- The code point of a character in lower-case hexadecimal digits, as an escape. -/
def codePointEscape (c : Char) : List Char :=
  ['\\', 'u', '\x7b'] ++ Nat.toDigits 16 c.toNat ++ ['\x7d']

/-- One character of a quoted text. -/
def quoteChar (c : Char) : List Char :=
  if c = '"' then ['\\', '"']
  else if c = '\\' then ['\\', '\\']
  else if c = '\n' then ['\\', 'n']
  else if c = '\r' then ['\\', 'r']
  else if c = '\t' then ['\\', 't']
  else if c.toNat = 0 then ['\\', '0']
  else if isUnprintable c then codePointEscape c
  else [c]

/-- The text in quotation marks. -/
def quoted (s : String) : String :=
  String.ofList (['"'] ++ s.toList.flatMap quoteChar ++ ['"'])

end Gamebook.Text
