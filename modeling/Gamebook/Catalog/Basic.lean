/-!
Gamebook.Catalog.Basic — the commands that an engine understands.

A catalog lists commands with their parameters. The engine owns it: here it is only looked up, and a
name that is listed twice means its first entry.
-/

namespace Gamebook

/-- The forms that an argument of a command can have. -/
inductive ValueForm where
  /-- A page, `@name`. -/
  | page
  /-- A flag, `$name`. -/
  | flag
  /-- A quoted text. -/
  | text
deriving DecidableEq, Repr

namespace ValueForm

/-- All forms. -/
def all : List ValueForm := [page, flag, text]

/-- The character that an argument of this form starts with. -/
def sigil : ValueForm → Char
  | page => '@'
  | flag => '$'
  | text => '"'

/-- The argument starts as the form asks. -/
def fits (form : ValueForm) (value : List Char) : Bool := value.head? == some form.sigil

end ValueForm

/-- What an argument of a command has to be. -/
inductive ParameterKind where
  /-- A quoted text. -/
  | text
  /-- A flag. -/
  | flag
  /-- A page. -/
  | page
  /-- Anything. -/
  | other
deriving DecidableEq, Repr

/-- The form that the kind asks for, if it asks for one. -/
def ParameterKind.form? : ParameterKind → Option ValueForm
  | text => some .text
  | flag => some .flag
  | page => some .page
  | other => none

/-- A parameter of a command. -/
structure Parameter where
  /-- The name of the parameter. -/
  name : String
  /-- What the argument has to be. -/
  kind : ParameterKind
  /-- The argument must be given. -/
  required : Bool
  /-- The texts that are expected; any text when empty. -/
  presets : List String
deriving DecidableEq, Repr

/-- A command of the engine. -/
structure CatalogEntry where
  /-- The name of the command. -/
  name : String
  /-- The parameters, in the order of the arguments. -/
  parameters : List Parameter
deriving DecidableEq, Repr

/-- The commands of an engine. -/
structure Catalog where
  /-- The commands, in the order in which they are listed. -/
  entries : List CatalogEntry
deriving DecidableEq, Repr

namespace Catalog

/-- The catalog without commands. -/
def empty : Catalog := ⟨[]⟩

/-- There are no commands. -/
def isEmpty (c : Catalog) : Bool := c.entries.isEmpty

/-- The first command of this name. -/
def get? (c : Catalog) (name : String) : Option CatalogEntry :=
  c.entries.find? fun e => e.name = name

/-- Some command has this name. -/
def contains (c : Catalog) (name : String) : Bool := (c.get? name).isSome

end Catalog

end Gamebook
