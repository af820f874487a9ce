import Gamebook.Grammar.Clause
import Gamebook.Grammar.Keyword
import Gamebook.Grammar.Marker

/-!
Gamebook.Grammar.Rule — what may follow each keyword on its line.

Every keyword but EXEC has a fixed list of arguments, of which the last may be repeatable. The
arguments of EXEC depend on the command that it names. IS has to follow a CHOICE or another IS.
-/

namespace Gamebook

open Text

/-- The shapes that an argument can be asked to have. -/
inductive ArgKind where
  /-- A text in quotation marks. -/
  | text
  /-- A page or a meta target. -/
  | page
  /-- A flag. -/
  | flag
  /-- A time limit. -/
  | time
  /-- A text in quotation marks, or a special label. -/
  | textOrSpecial
  /-- A clause or a negation. -/
  | conditionsEffects
deriving DecidableEq, Repr

namespace ArgKind

/-- The word has the shape: quotation marks at both ends and no line feed for a text, a sigil and a
whole name for pages, flags and time limits. For the last two kinds the beginning of the word
decides alone. -/
def accepts : ArgKind → List Char → Bool
  | text, word => match word with
    | '"' :: rest => rest.getLast? == some '"' && !rest.contains '\n'
    | _ => false
  | page, word => match word with
    | '@' :: '^' :: rest => (MetaTarget.ofName? rest).isSome
    | '@' :: rest => rest != [] && rest.all isWordChar
    | _ => false
  | flag, word => match word with
    | '$' :: rest => rest != [] && rest.all isWordChar
    | _ => false
  | time, word => match dropPrefix? TimeLimit.sigil word with
    | some rest => (TimeLimit.ofName? rest).isSome
    | none => false
  | textOrSpecial, word =>
    startsWith ['"'] word || Special.all.any fun s => startsWith s.letters word
  | conditionsEffects, word =>
    word == negation || (ClauseKind.opening? ClauseKind.all word).isSome

end ArgKind

/-- One argument of a keyword. -/
structure ArgSpec where
  /-- The shape of the argument. -/
  kind : ArgKind
  /-- The argument must be there. -/
  required : Bool
  /-- As the last argument of a keyword, it may be given any number of times. -/
  repeatable : Bool
deriving DecidableEq, Repr

/-- How many arguments a keyword takes, and of which shape. -/
inductive Arity where
  /-- These ones. -/
  | fixed (specs : List ArgSpec)
  /-- The ones of the command that the first argument names. -/
  | catalog
deriving DecidableEq, Repr

/-- What may stand on the line of a keyword, and in front of it. -/
structure Rule where
  /-- The arguments. -/
  arity : Arity
  /-- The last line of code before must open with one of these; no condition when empty. -/
  follows : List Keyword
deriving DecidableEq, Repr

/-- The rule of each keyword. -/
def Keyword.rule : Keyword → Rule
  | define => ⟨.fixed [⟨.text, true, false⟩], []⟩
  | page => ⟨.fixed [⟨.page, true, false⟩], []⟩
  | exec => ⟨.catalog, []⟩
  | choice => ⟨.fixed [⟨.time, false, false⟩], []⟩
  | is => ⟨.fixed [⟨.textOrSpecial, true, false⟩, ⟨.page, true, false⟩,
      ⟨.conditionsEffects, false, true⟩], [choice, is]⟩
  | goto => ⟨.fixed [⟨.page, true, false⟩, ⟨.conditionsEffects, false, true⟩], []⟩
  | ret => ⟨.fixed [], []⟩
  | back => ⟨.fixed [], []⟩
  | flag => ⟨.fixed [⟨.flag, true, true⟩], []⟩

end Gamebook
