import Gamebook.Text.Affix

/-!
Gamebook.CommandLine.Arguments — reading the arguments of a command line.

There are two commands, `validate FILE [--catalog PATH] [--format text|json]` and
`parse FILE [--json]`, and `help`. `-v` may be given in front of the command and behind it.

Words are read from left to right. A value that was given as a word of its own is looked at only
when the next option or value comes, or at the end, so an unknown option behind a bad value is
what is reported. Every option counts once in front of the command and once behind it. After `--`
all words are values.
-/

namespace Gamebook

open Text

/-! ## What a command line says -/

/-- The form of the report. -/
inductive Format where
  /-- Plain text. -/
  | text
  /-- A JSON document. -/
  | json
deriving DecidableEq, Repr

/-- The form with this name. -/
def Format.ofName? (name : String) : Option Format :=
  if name = "text" then some text else if name = "json" then some json else none

/-- What is to be done. -/
inductive Action where
  /-- Check a script. -/
  | validate (file : String) (catalog : Option String) (format : Format)
  /-- Read a script. -/
  | parse (file : String) (json : Bool)
deriving DecidableEq, Repr

/-- The arguments of a command line. -/
structure Arguments where
  /-- Log more than warnings. -/
  verbose : Bool
  /-- What is to be done. -/
  action : Action
deriving DecidableEq, Repr

/-- Why nothing is done. -/
inductive Refusal where
  /-- No arguments at all. -/
  | nothingGiven
  /-- Options, but no command. -/
  | missingCommand
  /-- An unknown command. -/
  | unknownCommand
  /-- No file. -/
  | missingFile
  /-- An unknown option, or a value too many. -/
  | unknownArgument
  /-- A bad value, or none where one is needed. -/
  | invalidValue
  /-- The same option twice. -/
  | givenTwice
  /-- A value for an option that takes none. -/
  | unwantedValue
  /-- Help is asked for. -/
  | help
  /-- The version is asked for. -/
  | version
deriving DecidableEq, Repr

/-- The result of reading arguments. -/
abbrev Parsed := Except Refusal

/-! ## Options -/

/-- Options without a value. -/
inductive Switch where
  /-- `-v`, `--verbose`. -/
  | verbose
  /-- `-h`, `--help`. -/
  | help
  /-- `-V`, `--version`. -/
  | version
  /-- `--json`. -/
  | json
deriving DecidableEq, Repr

namespace Switch

/-- The long name. -/
def name : Switch → String
  | verbose => "verbose"
  | help => "help"
  | version => "version"
  | json => "json"

/-- The letter. -/
def letter? : Switch → Option Char
  | verbose => some 'v'
  | help => some 'h'
  | version => some 'V'
  | json => none

end Switch

/-- Places that a value can be given for. -/
inductive Slot where
  /-- The file. -/
  | file
  /-- `--catalog`. -/
  | catalog
  /-- `--format`. -/
  | format
deriving DecidableEq, Repr

namespace Slot

/-- The long name, where the value belongs to an option. -/
def name? : Slot → Option String
  | file => none
  | catalog => some "catalog"
  | format => some "format"

/-- The value can stand there: paths are not empty, and formats have a name. -/
def accepts : Slot → String → Bool
  | file, value => value != ""
  | catalog, value => value != ""
  | format, value => (Format.ofName? value).isSome

end Slot

/-- The options that are known at some point of the command line. -/
structure Level where
  /-- The options without a value. -/
  switches : List Switch
  /-- The options with a value. -/
  settings : List Slot
deriving DecidableEq, Repr

namespace Level

/-- In front of the command. -/
def root : Level := ⟨[.verbose, .help, .version], []⟩

/-- Behind `validate`. -/
def validate : Level := ⟨[.verbose, .help], [.catalog, .format]⟩

/-- Behind `parse`. -/
def parse : Level := ⟨[.verbose, .help, .json], []⟩

end Level

/-! ## Words -/

/-- The form of a word of the command line. -/
inductive Word where
  /-- `--`. -/
  | escape
  /-- `--name` or `--name=value`. -/
  | long (name : String) (value : Option String)
  /-- `-` and letters. -/
  | letters (cs : List Char)
  /-- Any other word; a hyphen alone is one. -/
  | plain (text : String)
deriving DecidableEq, Repr

/-- A long option, with the value behind the first equals sign. -/
def Word.ofLong (s : List Char) : Word :=
  match s.dropWhile (· != '=') with
  | [] => long (String.ofList s) none
  | _ :: value => long (String.ofList (s.takeWhile (· != '='))) (some (String.ofList value))

/-- The form of a word. -/
def Word.ofString (word : String) : Word :=
  match word.toList with
  | ['-', '-'] => escape
  | '-' :: '-' :: s => ofLong s
  | '-' :: c :: s => letters (c :: s)
  | _ => plain word

/-! ## What has been given -/

/-- What has been given on one side of the command. -/
structure Given where
  /-- The options without a value. -/
  switches : List Switch := []
  /-- The values that have been looked at. -/
  values : List (Slot × String) := []
  /-- A place whose value has not been looked at, or is still to come. -/
  pending : Option (Slot × Option String) := none
deriving DecidableEq, Repr

namespace Given

/-- Take a value: not a second one for its place, and one that can stand there. -/
def put (g : Given) (slot : Slot) (value : String) : Parsed Given :=
  if (g.values.lookup slot).isSome then .error .givenTwice
  else if slot.accepts value then .ok { g with values := g.values ++ [(slot, value)] }
  else .error .invalidValue

/-- Look at the value that is pending. -/
def settle (g : Given) : Parsed Given :=
  match g.pending with
  | none => .ok g
  | some (_, none) => .error .invalidValue
  | some (slot, some value) => { g with pending := none }.put slot value

/-- Take an option without a value. -/
def flip (g : Given) (s : Switch) : Parsed Given := do
  let g ← g.settle
  match s with
  | .help => .error .help
  | .version => .error .version
  | _ => if s ∈ g.switches then .error .givenTwice else .ok { g with switches := g.switches ++ [s] }

/-- Take a long option. -/
def takeLong (g : Given) (level : Level) (name : String) (value : Option String) :
    Parsed Given :=
  match level.switches.find? fun s => s.name = name with
  | some s => if value.isSome then .error .unwantedValue else g.flip s
  | none =>
    match level.settings.find? fun slot => slot.name? = some name with
    | none => .error .unknownArgument
    | some slot => do
      let g ← g.settle
      match value with
      | some v => g.put slot v
      | none => .ok { g with pending := some (slot, none) }

/-- Take letters behind a hyphen. -/
def takeLetters (g : Given) (level : Level) : List Char → Parsed Given
  | [] => .ok g
  | c :: cs =>
    match level.switches.find? fun s => s.letter? = some c with
    | none => .error .unknownArgument
    | some s => do
      let g ← g.flip s
      g.takeLetters level cs

/-- The file has been given. -/
def hasFile (g : Given) : Bool :=
  (g.values.lookup .file).isSome || g.pending.any fun p => p.1 == .file

/-- Take a value that belongs to no option. -/
def takeFile (g : Given) (word : String) : Parsed Given :=
  if g.hasFile then .error .unknownArgument
  else do
    let g ← g.settle
    .ok { g with pending := some (.file, some word) }

/-- Take a word that is no option: the value of the option in front of it, or the file. -/
def takePlain (g : Given) (word : String) : Parsed Given :=
  match g.pending with
  | some (slot, none) => .ok { g with pending := some (slot, some word) }
  | _ => g.takeFile word

/-- Take all words behind a command. -/
def takeAll (g : Given) (level : Level) (escaped : Bool) : List String → Parsed Given
  | [] => g.settle
  | word :: words =>
    if escaped then do
      let g ← g.takeFile word
      g.takeAll level true words
    else match Word.ofString word with
      | .escape => g.takeAll level true words
      | .long name value => do
        let g ← g.takeLong level name value
        g.takeAll level false words
      | .letters cs => do
        let g ← g.takeLetters level cs
        g.takeAll level false words
      | .plain text => do
        let g ← g.takePlain text
        g.takeAll level false words

/-- The file, which must be there. -/
def file (g : Given) : Parsed String :=
  match g.values.lookup .file with
  | some f => .ok f
  | none => .error .missingFile

end Given

/-! ## Command lines -/

/-- The commands, and the word that asks for help on one. -/
inductive CommandWord where
  /-- `validate`. -/
  | validate
  /-- `parse`. -/
  | parse
  /-- `help`. -/
  | help
deriving DecidableEq, Repr

/-- The command that a word names. -/
def CommandWord.ofString? (word : String) : Option CommandWord :=
  if word = "validate" then some validate
  else if word = "parse" then some parse
  else if word = "help" then some help
  else none

/-- Read the words behind `help`: one command at most, since no command has commands of its own. -/
def readHelp : List String → Refusal
  | [] => .help
  | [word] => if (CommandWord.ofString? word).isSome then .help else .unknownCommand
  | _ => .unknownCommand

namespace Arguments

/-- Read the words behind a command; `before` is what was given in front of it. -/
def readCommand (before : Given) (command : CommandWord) (words : List String) :
    Parsed Arguments :=
  match command with
  | .help => .error (readHelp words)
  | .validate => do
    let g ← Given.takeAll {} .validate false words
    let file ← g.file
    let format := ((g.values.lookup .format).bind Format.ofName?).getD .text
    .ok ⟨.verbose ∈ before.switches ++ g.switches, .validate file (g.values.lookup .catalog) format⟩
  | .parse => do
    let g ← Given.takeAll {} .parse false words
    let file ← g.file
    .ok ⟨.verbose ∈ before.switches ++ g.switches, .parse file (.json ∈ g.switches)⟩

/-- Read the words from some point in front of the command on. After `--` no word is a command. -/
def readFrom (before : Given) (escaped : Bool) : List String → Parsed Arguments
  | [] => .error (if before.switches = [] then .nothingGiven else .missingCommand)
  | word :: words =>
    if escaped then
      .error (if (CommandWord.ofString? word).isSome then .unknownArgument else .unknownCommand)
    else match CommandWord.ofString? word with
      | some command => readCommand before command words
      | none => match Word.ofString word with
        | .escape => readFrom before true words
        | .long name value => do
          let g ← before.takeLong .root name value
          readFrom g false words
        | .letters cs => do
          let g ← before.takeLetters .root cs
          readFrom g false words
        | .plain _ => .error .unknownCommand

/-- Read a command line, without the name of the program. -/
def read (words : List String) : Parsed Arguments := readFrom {} false words

end Arguments

end Gamebook
