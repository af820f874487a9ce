import Gamebook.Catalog.Reader
import Gamebook.Check.Report
import Gamebook.CommandLine.Arguments
import Gamebook.CommandLine.FileTree
import Gamebook.CommandLine.Log
import Gamebook.CommandLine.Path
import Gamebook.Output.Document
import Gamebook.Output.Text

/-!
Gamebook.CommandLine.Run — what a command line does.

Running is a function: from the arguments and the contents of the files to what is printed. A
script that cannot be read ends the run; a catalog that cannot be read only weakens the checks,
and is warned about.
-/

namespace Gamebook

/-! ## Results -/

/-- Why a run ends early. -/
inductive RunError where
  /-- A file cannot be read. -/
  | unreadable (file : String) (fault : ReadFault)
  /-- The file holds no script. -/
  | noScript (file : String) (error : ScriptError)
deriving DecidableEq, Repr

/-- What is said when a file cannot be read. -/
def readingMessage (file : String) (fault : ReadFault) : String :=
  "Reading " ++ file ++ ": " ++ fault.message

/-- What is said about the error. -/
def RunError.message : RunError → String
  | unreadable file fault => readingMessage file fault
  | noScript file error => "Parsing " ++ file ++ ": " ++ error.message

/-- What a run leaves behind. -/
structure Outcome where
  /-- The exit code: 0 for success, 1 if something is wrong with the script, 2 if nothing was
  done. -/
  exit : Nat
  /-- What is printed. -/
  output : String
  /-- The warnings that are logged. -/
  warnings : List LogLine
  /-- Why the run ended early. -/
  error : Option RunError
deriving DecidableEq, Repr

namespace Outcome

/-- The run ended with a report. -/
def report (success : Bool) (output : String) (warnings : List LogLine) : Outcome :=
  ⟨if success then 0 else 1, output, warnings, none⟩

/-- The run ended early. -/
def failure (error : RunError) : Outcome := ⟨2, "", [], some error⟩

end Outcome

/-! ## Actions -/

/-- The contents of the files. -/
abbrev FileReader := String → Except ReadFault String

/-- The contents of files that have been read already. -/
def FileReader.ofRead (files : List (String × Except ReadFault String)) : FileReader :=
  fun path => (files.lookup path).getD (.error .notFound)

/-- The catalog at a path, or the empty catalog and a warning. -/
def readCatalog (read : FileReader) (path : String) : Catalog × List LogLine :=
  match read path with
  | .error fault => (.empty, [warning (readingMessage path fault)])
  | .ok text => match Catalog.read text with
    | .ok catalog => (catalog, [])
    | .error e => (.empty, [warning ("Parsing " ++ path ++ ": " ++ e.message)])
where
  /-- The warning about a catalog that is not there. -/
  warning (reason : String) : LogLine := ⟨reason ++ "; EXEC commands will not be checked", []⟩

/-- Check a script. -/
def runValidate (read : FileReader) (file : String) (catalog : Option String) (format : Format) :
    Outcome :=
  match read file with
  | .error fault => .failure (.unreadable file fault)
  | .ok text =>
    let (entries, warnings) := readCatalog read (catalog.getD (defaultCatalogPath file))
    let report := Report.ofText entries text
    let output := match format with
      | .text => Output.diagnosticsText file report.diagnostics
      | .json => Output.diagnosticsDocument file report.diagnostics
    .report report.isSuccess output warnings

/-- The warning about a broken line. -/
def brokenWarning (b : BrokenLine) : LogLine :=
  ⟨"could not parse: " ++ b.source, [("line", toString b.line), ("page", Text.quoted b.page)]⟩

/-- Read a script. -/
def runParse (read : FileReader) (file : String) (json : Bool) : Outcome :=
  match read file with
  | .error fault => .failure (.unreadable file fault)
  | .ok text => match Script.read text with
    | .error e => .failure (.noScript file e)
    | .ok script =>
      let broken := script.brokenLines
      if json then
        .report broken.isEmpty (Output.scriptDocument script) (broken.map brokenWarning)
      else .report broken.isEmpty (Output.summaryText file script) []

/-- The files that an action may read. -/
def Action.files : Action → List String
  | .validate file catalog _ => [file, catalog.getD (defaultCatalogPath file)]
  | .parse file _ => [file]

/-- Do what the arguments say. Warnings are logged unless the level is below them; to be verbose
raises it. -/
def Arguments.run (read : FileReader) (level : LogLevel) (args : Arguments) : Outcome :=
  let outcome := match args.action with
    | .validate file catalog format => runValidate read file catalog format
    | .parse file json => runParse read file json
  if args.verbose ∨ level = .warn then outcome else { outcome with warnings := [] }

/-- What `--version` prints. -/
def versionText : String := "gamebook-script 0.1.0\n"

/-- The outcome when nothing is done. -/
def Refusal.outcome : Refusal → Outcome
  | .version => ⟨0, versionText, [], none⟩
  | .help => ⟨0, "", [], none⟩
  | _ => ⟨2, "", [], none⟩

/-- The files that a command line names. -/
def namedFiles (words : List String) : List String :=
  match Arguments.read words with
  | .ok args => args.action.files
  | .error _ => []

/-- Run a command line. -/
def run (read : FileReader) (level : LogLevel) (words : List String) : Outcome :=
  match Arguments.read words with
  | .ok args => args.run read level
  | .error refusal => refusal.outcome

end Gamebook
