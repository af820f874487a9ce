import Gamebook.Script.Basic
import Gamebook.Text.Lines

/-!
Gamebook.Script.Reader — reading a script.

The lines of a text are taken one by one, trimmed and without their comments; what is empty then
is skipped. A page runs from its PAGE line to the next PAGE or DEFINE line, and a line in front of
the first page, or behind a DEFINE line, belongs to none. On a page, a CHOICE line and the IS
lines behind it make up one menu, which is closed by the next line that is not an IS line.

Only a missing header keeps a text from being read.

* `OpenPage.push` takes one line of a page.
* `Reader.step` takes one line of the text.
* `Script.read` takes the whole text.
-/

namespace Gamebook

open Text

/-- Why a text is no script. -/
inductive ScriptError where
  /-- No line of the text opens with DEFINE. -/
  | missingHeader
deriving DecidableEq, Repr

/-- What is said about the error. -/
def ScriptError.message : ScriptError → String
  | missingHeader => "script has no DEFINE header"

/-! ## Lines of code -/

/-- The line without blanks on either side and without its comment. -/
def lineBody (raw : List Char) : List Char := trimEnd (stripComment (trim raw))

/-- A line that holds more than blanks and a comment. -/
structure CodeLine where
  /-- The number of the line in the text. -/
  number : Nat
  /-- The line, trimmed and without its comment. -/
  source : List Char
  /-- The tokens of the line. -/
  tokens : List Token
deriving DecidableEq, Repr

namespace CodeLine

/-- The line of code that a line of the text holds. -/
def ofRaw? (number : Nat) (raw : List Char) : Option CodeLine :=
  let body := lineBody raw
  if body = [] then none else some ⟨number, body, Token.ofLine body⟩

/-- The first token of the line is the keyword. -/
def opensWith (line : CodeLine) (k : Keyword) : Bool := line.tokens.head? == some (.keyword k)

/-- The line as a command that means nothing. -/
def broken (line : CodeLine) : Command := .broken line.number (String.ofList line.source)

/-- The first quoted text of the line. -/
def text? (line : CodeLine) : Option String :=
  line.tokens.findSome? fun
    | .text s => some s
    | _ => none

/-- The first time limit of the line. -/
def time? (line : CodeLine) : Option TimeLimit :=
  line.tokens.findSome? fun
    | .time t => some t
    | _ => none

end CodeLine

/-- The lines of code of a text. -/
def codeLines (text : List Char) : List CodeLine :=
  (numberedLines text).filterMap fun (number, raw) => CodeLine.ofRaw? number raw

/-! ## Clauses and transitions -/

/-- The conditions and effects that clause-shaped words stand for, each in the order of the text.
A negation turns the next clause into its opposite; `negated` tells whether one is waiting. -/
def readGuards (negated : Bool) : List Guard → List Condition × List Effect
  | [] => ([], [])
  | .negate :: gs => readGuards true gs
  | .clause c :: gs =>
    let rest := readGuards false gs
    match (if negated then c.kind.negate else c.kind) with
    | .condition p => (⟨p, c.flags⟩ :: rest.1, rest.2)
    | .effect p => (rest.1, ⟨p, c.flags⟩ :: rest.2)

/-- The destination that a token names. -/
def Token.destination? : Token → Option Destination
  | page name => some (.page name)
  | metaTarget .here => some .stayHere
  | metaTarget .back => some .goBack
  | _ => none

/-- The first destination on the line, with all conditions and effects of the line. -/
def CodeLine.transition? (line : CodeLine) : Option Transition :=
  (line.tokens.findSome? Token.destination?).map fun destination =>
    let guards := readGuards false (line.tokens.filterMap Token.guard?)
    ⟨destination, guards.1, guards.2⟩

/-- The command that a line stands for by itself; a line with none is broken. -/
def CodeLine.command (line : CodeLine) : Command :=
  match line.tokens with
  | .keyword .goto :: _ => match line.transition? with
    | some t => .goto t
    | none => line.broken
  | .keyword .exec :: .exec name :: _ =>
    if name = "" then line.broken
    else .exec name (((segments line.source).drop 2).map fun w => String.ofList w.text)
  | .keyword .ret :: _ => .pageEnd .ret
  | .keyword .back :: _ => .pageEnd .back
  | .message kind guards text :: _ => .textLine kind (readGuards false guards).1 text
  | _ => line.broken

/-! ## Menus -/

/-- What stands in the place of an option's text. -/
inductive OptionLabel where
  /-- A text. -/
  | text (text : String)
  /-- A special label. -/
  | special (label : Special)
deriving DecidableEq, Repr

/-- The label that a token is. -/
def Token.label? : Token → Option OptionLabel
  | text s => some (.text s)
  | special m => some (.special m)
  | _ => none

/-- The first label on the line. -/
def CodeLine.label? (line : CodeLine) : Option OptionLabel := line.tokens.findSome? Token.label?

/-- The text that an option shows, where `previous` is the one of the option before: its own text,
or for `/SAME` that of the option before. Any other option shows none. -/
def shownText (previous : Option String) : Option OptionLabel → Option String
  | some (.text s) => some s
  | some (.special .same) => previous
  | _ => none

/-- The options that the lines stand for, and the lines that have no destination as broken ones.
A line without destination still gives its text to a `/SAME` behind it. -/
def readOptions (previous : Option String) : List CodeLine → List ChoiceOption × List Command
  | [] => ([], [])
  | line :: lines =>
    let label := line.label?
    let text := shownText previous label
    let rest := readOptions text lines
    match line.transition? with
    | some t =>
      (⟨text, label = some (.special .cancel), label = some (.special .timeup), t⟩ :: rest.1,
        rest.2)
    | none => (rest.1, line.broken :: rest.2)

/-- A menu whose options are still being collected. -/
structure OpenMenu where
  /-- The time limit of the menu. -/
  time : Option TimeLimit
  /-- The IS lines up to now. -/
  options : List CodeLine
deriving DecidableEq, Repr

/-- The command for the menu, and its broken lines behind it. The text in front of the first option
counts as empty. -/
def OpenMenu.commands (menu : OpenMenu) : List Command :=
  let read := readOptions (some "") menu.options
  .choice menu.time read.1 :: read.2

/-! ## Pages -/

/-- A page that is being read. -/
structure OpenPage where
  /-- The name of the page. -/
  name : String
  /-- The commands up to now. -/
  commands : List Command
  /-- The menu that is open. -/
  menu : Option OpenMenu
deriving DecidableEq, Repr

namespace OpenPage

/-- The page that a PAGE line starts: none if no name follows the keyword. -/
def ofLine? (line : CodeLine) : Option OpenPage :=
  match line.tokens with
  | _ :: .page name :: _ => some ⟨name, [], none⟩
  | _ => none

/-- Close the open menu. -/
def flush (p : OpenPage) : OpenPage :=
  match p.menu with
  | none => p
  | some menu => ⟨p.name, p.commands ++ menu.commands, none⟩

/-- Take one line of the page. An IS line without an open menu opens one that has no time limit. -/
def push (p : OpenPage) (line : CodeLine) : OpenPage :=
  if line.opensWith .choice then { p.flush with menu := some ⟨line.time?, []⟩ }
  else if line.opensWith .is then
    let menu := p.menu.getD ⟨none, []⟩
    { p with menu := some { menu with options := menu.options ++ [line] } }
  else
    let closed := p.flush
    { closed with commands := closed.commands ++ [line.command] }

/-- The finished page. -/
def finish (p : OpenPage) : Page := ⟨p.name, p.flush.commands⟩

end OpenPage

/-! ## Scripts -/

/-- The state between two lines. -/
structure Reader where
  /-- The finished pages. -/
  pages : List Page
  /-- The page that is being read. -/
  current : Option OpenPage
deriving DecidableEq, Repr

namespace Reader

/-- Nothing has been read. -/
def empty : Reader := ⟨[], none⟩

/-- Finish the page that is being read. -/
def close (r : Reader) : Reader :=
  match r.current with
  | none => r
  | some p => ⟨p.finish.insert r.pages, none⟩

/-- Take one line. -/
def step (r : Reader) (line : CodeLine) : Reader :=
  if line.opensWith .page then { r.close with current := OpenPage.ofLine? line }
  else if line.opensWith .define then r.close
  else { r with current := r.current.map fun p => p.push line }

/-- Take all lines and finish the last page. -/
def run (lines : List CodeLine) : List Page := (lines.foldl step empty).close.pages

end Reader

/-- The names that the lines mention. -/
def mentionedNames (lines : List CodeLine) : Registry :=
  lines.foldl (fun r line => Registry.note r line.tokens) {}

/-- Read a script. -/
def Script.read (text : String) : Except ScriptError Script :=
  let lines := codeLines text.toList
  match lines.find? fun line => line.opensWith .define with
  | none => .error .missingHeader
  | some header =>
    let names := mentionedNames lines
    .ok ⟨header.text?.getD "", names.pages, names.flags, Reader.run lines⟩

end Gamebook
