import Gamebook.Check.Argument
import Gamebook.Check.Clause
import Gamebook.Check.Declaration
import Gamebook.Check.Menu
import Gamebook.Check.Reference
import Gamebook.Script.Reader

/-!
Gamebook.Check.Report — checking a whole text.

Checking never fails. The header is looked at first, then all declarations, then each line: what
stands before it, its arguments, its place in the open menu, its references, its clauses. `findings`
keeps this order; a report sorts by line and column, and keeps it among findings at one place.
-/

namespace Gamebook

/-- What the checks carry from line to line. -/
structure CheckState where
  /-- The last line of code. -/
  previous : Option Line
  /-- The menu that is open. -/
  menu : Option MenuState
deriving DecidableEq, Repr

namespace CheckState

/-- In front of the first line. -/
def initial : CheckState := ⟨none, none⟩

/-- Behind a line. Blank lines and comments change nothing. -/
def next (s : CheckState) (line : Line) : CheckState :=
  if line.isCode then ⟨some line, MenuState.next s.menu line⟩ else s

end CheckState

/-- The marks that hang on the keyword of a line. -/
def keywordMarks (d : Declared) (s : CheckState) (line : Line) : List Mark :=
  match line.keyword? with
  | none => []
  | some k =>
    previousMarks s.previous line k ++ argumentMarks d.catalog line k ++
      MenuState.marks s.menu line k

/-- The marks that hang on the code of a line. -/
def codeMarks (d : Declared) (line : Line) : List Mark :=
  referenceMarks d line ++ joinMarks line ++ placementMarks line ++ negationMarks line

/-- All marks on a line. -/
def lineMarks (d : Declared) (s : CheckState) (line : Line) : List Mark :=
  if line.isCode then keywordMarks d s line ++ codeMarks d line else []

/-- The marks on the lines from a state on. -/
def marksFrom (d : Declared) (s : CheckState) : List Line → List Mark
  | [] => []
  | line :: lines => lineMarks d s line ++ marksFrom d (s.next line) lines

/-- All marks on the lines of a text. -/
def allMarks (catalog : Catalog) (lines : List Line) : List Mark :=
  repeatedHeaderMarks lines ++ duplicateMarks [] (declarations lines) ++
    marksFrom (Declared.ofLines catalog lines) .initial lines

/-- All findings, in the order of the checks. -/
def findings (catalog : Catalog) (text : String) : List Finding :=
  let lines := Line.ofText text.toList
  headerFindings lines ++ (allMarks catalog lines).filterMap Mark.finding?

/-- All diagnostics, in the order of the checks. -/
def diagnostics (catalog : Catalog) (text : String) : List Diagnostic :=
  (findings catalog text).map Finding.diagnostic

/-- What is known about a text: what it reads as, and what is wrong with it. -/
structure Report where
  /-- The script. -/
  script : Except ScriptError Script
  /-- The diagnostics, by line and column. -/
  diagnostics : List Diagnostic

namespace Report

/-- Read and check a text. -/
def ofText (catalog : Catalog) (text : String) : Report :=
  ⟨Script.read text, Diagnostic.sort (Gamebook.diagnostics catalog text)⟩

/-- The number of diagnostics of this severity. -/
def count (r : Report) (severity : Severity) : Nat := Diagnostic.count severity r.diagnostics

/-- There are no errors. -/
def isSuccess (r : Report) : Bool := r.count .error == 0

end Report

end Gamebook
