/-!
Gamebook.Check.Diagnostic — what a report says about a text.
-/

namespace Gamebook

/-- How bad a finding is. Only errors make a check fail. -/
inductive Severity where
  /-- The script does not work. -/
  | error
  /-- The script probably does not do what is meant. -/
  | warning
  /-- Something that the author may want to know. -/
  | info
  /-- A suggestion. -/
  | hint
deriving DecidableEq, Repr

namespace Severity

/-- All severities, the worst one first. -/
def all : List Severity := [error, warning, info, hint]

/-- The name of the severity in reports. -/
def name : Severity → String
  | error => "Error"
  | warning => "Warning"
  | info => "Info"
  | hint => "Hint"

end Severity

/-- One line of a report. Lines and columns count from 1, and the end column is not included. -/
structure Diagnostic where
  /-- The number of the line. -/
  line : Nat
  /-- The first column. -/
  startColumn : Nat
  /-- The first column behind. -/
  endColumn : Nat
  /-- What is said. -/
  message : String
  /-- How bad it is. -/
  severity : Severity
deriving DecidableEq, Repr

namespace Diagnostic

/-- How many diagnostics have this severity. -/
def count (severity : Severity) (ds : List Diagnostic) : Nat :=
  ds.countP fun d => d.severity = severity

/-- The first one stands no further down, and on the same line no further right. -/
def le (a b : Diagnostic) : Bool :=
  a.line < b.line || (a.line == b.line && a.startColumn ≤ b.startColumn)

/-- The diagnostics by line and column; those of one place keep their order. -/
def sort (ds : List Diagnostic) : List Diagnostic := ds.mergeSort le

end Diagnostic

end Gamebook
