import Gamebook.CommandLine.Run

/-!
Gamebook.Main — the command line program.

The files that the arguments name are read first; what is printed is then decided by `Gamebook.run`.
The level of the log is taken from the environment.
-/

namespace Gamebook

/-- The number of a system error, which may also come negated, is `n`. -/
def isErrorNumber (code n : UInt32) : Bool := code == n || code == 0 - n

/-- The fault that an error of the system stands for. -/
def ReadFault.ofError (e : IO.Error) : ReadFault :=
  match e with
  | .noFileOrDirectory .. => notFound
  | .inappropriateType _ code _ =>
    if isErrorNumber code 21 then isDirectory
    else if isErrorNumber code 20 then notDirectory
    else other e.toString
  | .invalidArgument _ code _ =>
    if isErrorNumber code 36 then nameTooLong else other e.toString
  | e => other e.toString

/-- Read a file. -/
def readTextFile (path : String) : IO (Except ReadFault String) := do
  try
    return decodeText (← IO.FS.readBinFile path)
  catch e => return .error (.ofError e)

/-- Read the files that a command line names. -/
def readNamedFiles (words : List String) : IO (List (String × Except ReadFault String)) :=
  (namedFiles words).mapM fun path => do return (path, ← readTextFile path)

/-- What is printed when nothing is done. -/
def usageText : String :=
  "Usage: gamebook [-v] validate FILE [--catalog PATH] [--format text|json]\n" ++
  "       gamebook [-v] parse FILE [--json]\n" ++
  "       gamebook --help | --version\n"

/-- Print what a run leaves behind. -/
def Outcome.print (outcome : Outcome) : IO Unit := do
  for warning in outcome.warnings do
    IO.eprintln warning.text
  IO.print outcome.output
  match outcome.error with
  | some e => IO.eprintln ("error: " ++ e.message)
  | none => return

/-- Print how the program is used, where that is asked for or nothing else can be done. -/
def printUsage (words : List String) : IO Unit :=
  match Arguments.read words with
  | .error .help => IO.print usageText
  | .error .version => return
  | .error _ => IO.eprint usageText
  | .ok _ => return

end Gamebook

/-- Run the command line. -/
def main (words : List String) : IO UInt32 := do
  let level := Gamebook.LogLevel.ofName ((← IO.getEnv "GAMEBOOK_LOG").getD "warn")
  let files ← Gamebook.readNamedFiles words
  let outcome := Gamebook.run (.ofRead files) level words
  outcome.print
  Gamebook.printUsage words
  return outcome.exit.toUInt32
