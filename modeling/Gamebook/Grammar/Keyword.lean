import Gamebook.Text.Affix
import Gamebook.Text.Blank

/-!
Gamebook.Grammar.Keyword — the words that open a line of code.

A line opens with a keyword when the keyword stands at its start and a blank, or nothing, follows.
No keyword is the beginning of another one, so a line opens with at most one.
-/

namespace Gamebook

/-- The words that open a line of code. -/
inductive Keyword where
  /-- The header, with the name of the script. -/
  | define
  /-- The start of a page. -/
  | page
  /-- A command for the engine. -/
  | exec
  /-- The start of a menu. -/
  | choice
  /-- An option of a menu. -/
  | is
  /-- A jump. -/
  | goto
  /-- The end of a page that returns. -/
  | ret
  /-- The end of a page that goes back. -/
  | back
  /-- A declaration of flags. -/
  | flag
deriving DecidableEq, Repr

namespace Keyword

/-- All keywords, in the order in which a line is tried against them. -/
def all : List Keyword := [define, page, exec, choice, is, goto, ret, back, flag]

/-- How the keyword is written. -/
def name : Keyword → String
  | define => "DEFINE"
  | page => "PAGE"
  | exec => "EXEC"
  | choice => "CHOICE"
  | is => "IS"
  | goto => "TO"
  | ret => "RETURN"
  | back => "BACK"
  | flag => "FLAG"

/-- The characters of the keyword. -/
def letters (k : Keyword) : List Char := k.name.toList

/-- The keyword that is written so. -/
def ofWord? (word : List Char) : Option Keyword := all.find? fun k => k.letters = word

/-- The trimmed line is the keyword alone, or the keyword and a blank stand at its start. -/
def opens (k : Keyword) (line : List Char) : Bool :=
  match Text.dropPrefix? k.letters line with
  | some rest => Text.startsBlankOrEmpty rest
  | none => false

/-- The keyword that a trimmed line opens with. -/
def leading? (line : List Char) : Option Keyword := all.find? fun k => k.opens line

theorem mem_all (k : Keyword) : k ∈ all := by cases k <;> decide

end Keyword

end Gamebook
