import Gamebook.Check.Diagnostic
import Gamebook.Script.Basic

/-!
Gamebook.Output.Text — plain reports, one finding on a line.
-/

namespace Gamebook.Output

/-- The lines, each with a line feed at its end. -/
def unlines (lines : List String) : String := String.join (lines.map (· ++ "\n"))

/-- A place of a file. -/
def place (file : String) (line : Nat) : String := file ++ ":" ++ toString line

/-- The line for a diagnostic. -/
def diagnosticLine (file : String) (d : Diagnostic) : String :=
  place file d.line ++ ":" ++ toString d.startColumn ++ " - " ++ d.severity.name ++ ": " ++
    d.message

/-- The numbers of errors and warnings. -/
def countLine (ds : List Diagnostic) : String :=
  toString (Diagnostic.count .error ds) ++ " error(s), " ++
    toString (Diagnostic.count .warning ds) ++ " warning(s)"

/-- The report on the diagnostics of a file. -/
def diagnosticsText (file : String) (ds : List Diagnostic) : String :=
  unlines (ds.map (diagnosticLine file) ++ [countLine ds])

/-- The line that sums up a script. -/
def summaryLine (file : String) (script : Script) : String :=
  file ++ ": \"" ++ script.name ++ "\" - " ++ toString script.pages.length ++ " page(s), " ++
    toString script.flagNames.length ++ " flag(s)"

/-- The line for a broken line. -/
def brokenLine (file : String) (b : BrokenLine) : String :=
  place file b.line ++ " - parse error in @" ++ b.page ++ ": " ++ b.source

/-- The summary of a script, with its broken lines. -/
def summaryText (file : String) (script : Script) : String :=
  let broken := script.brokenLines
  unlines ([summaryLine file script] ++ broken.map (brokenLine file) ++
    [toString broken.length ++ " parse error(s)"])

end Gamebook.Output
