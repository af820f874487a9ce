import Gamebook.Catalog.Basic
import Gamebook.Check.Line

/-!
Gamebook.Check.Argument — the arguments behind a keyword.

The rule of the keyword says how many arguments there are and of which shape. What EXEC takes is
said by the catalog entry of the command that it names; a command that is not listed is left alone
here.
-/

namespace Gamebook

open Text

/-! ## What stands in front -/

/-- A mark on the keyword, if the line of code before does not open as the rule of the keyword
asks. The first line of code may open with anything. -/
def previousMarks (previous : Option Line) (line : Line) (k : Keyword) : List Mark :=
  match previous with
  | none => []
  | some p =>
    if k.rule.follows = [] ∨ k.rule.follows.any (fun f => f.opens p.trimmed) then []
    else [line.markKeyword k (.misplaced k k.rule.follows)]

/-! ## Fixed arguments -/

/-- The spec for the argument at index `i`; the last one stands for all that follow if it is
repeatable. -/
def specAt? (specs : List ArgSpec) (i : Nat) : Option ArgSpec :=
  match specs[i]? with
  | some spec => some spec
  | none => specs.getLast?.filter fun spec => spec.repeatable

/-- What is said when the argument at index `i` is missing. -/
def missingCause (k : Keyword) (i : Nat) : Cause :=
  if k = .define ∧ i = 0 then .missingName else .missingArgument k (i + 1)

/-- Marks for the required arguments that are not there. -/
def missingMarks (line : Line) (k : Keyword) (specs : List ArgSpec) (args : List Segment) :
    List Mark :=
  specs.zipIdx.filterMap fun (spec, i) =>
    if spec.required ∧ args.length ≤ i then some (line.markKeyword k (missingCause k i)) else none

/-- Marks on the arguments that are too many or have the wrong shape. -/
def shapeMarks (line : Line) (k : Keyword) (specs : List ArgSpec) (args : List Segment) :
    List Mark :=
  args.zipIdx.filterMap fun (arg, i) =>
    match specAt? specs i with
    | none => some (line.markSegment arg (.tooManyArguments k))
    | some spec =>
      if spec.kind.accepts arg.text then none
      else some (line.markSegment arg (.badArgument k (i + 1) spec.kind))

/-- Marks for a keyword with a fixed list of arguments. -/
def fixedArgumentMarks (line : Line) (k : Keyword) (specs : List ArgSpec) (args : List Segment) :
    List Mark :=
  if specs = [] then
    if args = [] then [] else [line.markKeyword k (.takesNoArguments k)]
  else missingMarks line k specs args ++ shapeMarks line k specs args

/-! ## Arguments of commands -/

/-- The name of the command that an argument starts with: `#` and a run of command characters, one
at least. -/
def commandName? (word : List Char) : Option (List Char) :=
  match word with
  | '#' :: rest =>
    if rest.takeWhile isCommandChar = [] then none else some (rest.takeWhile isCommandChar)
  | _ => none

/-- A quoted text without its quotation marks; any other text as it is. -/
def unquoted (value : List Char) : List Char :=
  match value with
  | '"' :: rest => if rest.getLast? = some '"' then rest.dropLast else value
  | _ => value

/-- The cause for an argument that does not suit its parameter, beside its general form. A text is
looked up among the presets of the parameter, without its quotation marks. -/
def parameterCause? (command : String) (parameter : Parameter) (value : List Char) :
    Option Cause :=
  match parameter.kind.form? with
  | none => none
  | some form =>
    if !form.fits value then some (.commandArgumentForm parameter.name form)
    else if form = .text ∧ parameter.presets ≠ [] ∧
        String.ofList (unquoted value) ∉ parameter.presets then
      some (.notPreset (String.ofList value) parameter.name command)
    else none

/-- Marks on an argument of a command. -/
def valueMarks (line : Line) (command : String) (parameter : Parameter) (value : Segment) :
    List Mark :=
  (if ValueForm.all.any fun form => form.fits value.text then []
    else [line.markSegment value .commandArgumentShape]) ++
  ((parameterCause? command parameter value.text).map (line.markSegment value)).toList

/-- Marks for the parameters of a command, one after the other. `name` is the place of the command's
name, where a missing argument is marked. -/
def parameterMarks (line : Line) (command : String) (name : Span) :
    List Parameter → List Segment → List Mark
  | [], _ => []
  | parameter :: parameters, value :: values =>
    valueMarks line command parameter value ++
      parameterMarks line command name parameters values
  | parameter :: parameters, [] =>
    (if parameter.required then [⟨line, name, .commandMissing command parameter.name⟩] else []) ++
      parameterMarks line command name parameters []

/-- Marks for a command that the catalog lists. -/
def entryMarks (line : Line) (entry : CatalogEntry) (command : String) (name : Span)
    (values : List Segment) : List Mark :=
  (if entry.parameters.length < values.length then
    [⟨line, name, .commandTakesAtMost command entry.parameters.length⟩] else []) ++
  parameterMarks line command name entry.parameters values

/-- Marks for the arguments of EXEC. -/
def commandMarks (catalog : Catalog) (line : Line) (args : List Segment) : List Mark :=
  match args with
  | [] => []
  | first :: values =>
    match commandName? first.text with
    | none => []
    | some name =>
      match catalog.get? (String.ofList name) with
      | none => []
      | some entry =>
        entryMarks line entry (String.ofList name)
          ⟨first.start, first.start + 1 + byteLength name⟩ values

/-- Marks for the arguments of any keyword. -/
def argumentMarks (catalog : Catalog) (line : Line) (k : Keyword) : List Mark :=
  match k.rule.arity with
  | .fixed specs => fixedArgumentMarks line k specs (line.arguments k)
  | .catalog => commandMarks catalog line (line.arguments k)

end Gamebook
