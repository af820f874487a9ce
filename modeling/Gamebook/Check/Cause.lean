import Gamebook.Catalog.Basic
import Gamebook.Check.Diagnostic
import Gamebook.Grammar.Rule

/-!
Gamebook.Check.Cause — all that can be wrong with a text.

Every check answers with causes; `Cause.severity` and `Cause.message` say how a report shows them.
-/

namespace Gamebook

/-- The two kinds of names that a text declares. They do not get in each other's way. -/
inductive NameKind where
  /-- Pages, declared on PAGE lines. -/
  | page
  /-- Flags, declared on FLAG lines. -/
  | flag
deriving DecidableEq, Repr

/-- What a name of this kind is called. -/
def NameKind.noun : NameKind → String
  | page => "page"
  | flag => "flag"

/-- What is wrong at some place of a text. -/
inductive Cause where
  /-- The first line does not start with DEFINE. -/
  | noHeader
  /-- A second header. -/
  | repeatedHeader
  /-- A name is declared that was declared before. -/
  | duplicate (kind : NameKind) (name : String)
  /-- The line of code before does not open with one of the keywords that it has to open with. -/
  | misplaced (keyword : Keyword) (follows : List Keyword)
  /-- Arguments behind a keyword that takes none. -/
  | takesNoArguments (keyword : Keyword)
  /-- The header has no name. -/
  | missingName
  /-- The keyword has no argument at this place, counted from 1. -/
  | missingArgument (keyword : Keyword) (place : Nat)
  /-- One argument too many. -/
  | tooManyArguments (keyword : Keyword)
  /-- The argument at this place does not have the shape it should have. -/
  | badArgument (keyword : Keyword) (place : Nat) (kind : ArgKind)
  /-- The command takes fewer arguments. -/
  | commandTakesAtMost (command : String) (count : Nat)
  /-- The command has no argument for a parameter that needs one. -/
  | commandMissing (command parameter : String)
  /-- The argument of a command is neither a page nor a flag nor a text. -/
  | commandArgumentShape
  /-- The argument of a command does not have the form that the parameter asks for. -/
  | commandArgumentForm (parameter : String) (form : ValueForm)
  /-- The text is not one of those that the parameter expects. -/
  | notPreset (text parameter command : String)
  /-- `/SAME` on the first option of a menu. -/
  | nothingToRepeat
  /-- `/TIMEUP` in a menu without a time limit. -/
  | noTimeLimit
  /-- A meta target in the place of a page's name. -/
  | metaDeclared (target : String)
  /-- A name that is declared nowhere. -/
  | undeclared (kind : NameKind) (name : String)
  /-- A command that the catalog does not list. -/
  | unknownCommand (name : String)
  /-- A condition with another clause behind a comma. -/
  | joinedConditions
  /-- An effect with another clause behind a comma. -/
  | joinedEffects
  /-- A time limit on a line that is not a menu. -/
  | misplacedTime
  /-- A special label on a line that is not an option. -/
  | misplacedSpecial (label : String)
  /-- A condition on a line that cannot have one. -/
  | misplacedCondition
  /-- An effect on a line that cannot have one. -/
  | misplacedEffect
  /-- A negation that no clause follows. -/
  | danglingNegation
deriving DecidableEq, Repr

namespace Cause

/-- How bad the cause is. -/
def severity : Cause → Severity
  | noHeader | repeatedHeader | duplicate .. | misplaced .. => .error
  | takesNoArguments _ => .warning
  | missingName | missingArgument .. | tooManyArguments _ | badArgument .. => .error
  | commandTakesAtMost .. | commandMissing .. => .warning
  | commandArgumentShape | commandArgumentForm .. => .warning
  | notPreset .. => .hint
  | nothingToRepeat => .info
  | noTimeLimit => .warning
  | metaDeclared _ | undeclared .. | unknownCommand _ | joinedConditions | joinedEffects => .error
  | misplacedTime | misplacedSpecial _ | misplacedCondition | misplacedEffect => .warning
  | danglingNegation => .warning

/-- What is asked of an argument that does not have its shape. -/
def badArgumentMessage (keyword : Keyword) (place : Nat) : ArgKind → String
  | .page => argument ++ " must be a @page"
  | .textOrSpecial => argument ++ " must be \"text\" or /SAME, /CANCEL, /TIMEUP"
  | .time => keyword.name ++ " only accepts time:"
  | .text | .flag | .conditionsEffects => argument ++ " is malformed"
where
  /-- Which argument it is. -/
  argument : String := "argument " ++ toString place ++ " of " ++ keyword.name

/-- What an argument of a command has to be. -/
def formMessage : ValueForm → String
  | .page => "a @page"
  | .flag => "a $flag"
  | .text => "\"text\""

/-- What a report says about the cause. -/
def message : Cause → String
  | noHeader => "line 1 must start with DEFINE"
  | repeatedHeader => "DEFINE may only appear once"
  | duplicate kind name => "duplicate " ++ kind.noun ++ " declaration: " ++ name
  | misplaced keyword follows =>
    keyword.name ++ " must follow " ++ " or ".intercalate (follows.map Keyword.name)
  | takesNoArguments keyword => keyword.name ++ " takes no arguments"
  | missingName => "DEFINE requires a script name (\"text\")"
  | missingArgument keyword place => keyword.name ++ " requires argument " ++ toString place
  | tooManyArguments keyword => "too many arguments for " ++ keyword.name
  | badArgument keyword place kind => badArgumentMessage keyword place kind
  | commandTakesAtMost command count =>
    command ++ " takes at most " ++ toString count ++ " argument(s)"
  | commandMissing command parameter => command ++ " requires argument " ++ parameter
  | commandArgumentShape => "EXEC arguments must be a @page, $flag or \"text\""
  | commandArgumentForm parameter form =>
    "argument " ++ parameter ++ " must be " ++ formMessage form
  | notPreset text parameter command =>
    text ++ " is not a preset for " ++ parameter ++ " (" ++ command ++ ")"
  | nothingToRepeat => "/SAME has no preceding option to repeat"
  | noTimeLimit => "/TIMEUP requires a CHOICE with a time: limit"
  | metaDeclared target => target ++ " cannot be used in a PAGE declaration"
  | undeclared kind name => "undefined " ++ kind.noun ++ ": " ++ name
  | unknownCommand name => "undefined command: " ++ name
  | joinedConditions =>
    "conditions cannot be joined with a comma; separate them with spaces or list several flags " ++
      "in one condition"
  | joinedEffects =>
    "effects cannot be joined with a comma; separate them with spaces or list several flags " ++
      "in one effect"
  | misplacedTime => "time: is only valid on CHOICE lines"
  | misplacedSpecial label => label ++ " is only valid on IS lines"
  | misplacedCondition => "conditions are only valid on IS/TO/text lines"
  | misplacedEffect => "effects are only valid on IS/TO lines"
  | danglingNegation => "mode:not must be followed by a condition or effect"

end Cause

end Gamebook
