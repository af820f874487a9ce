import Gamebook.Script.Token

/-!
Gamebook.Script.Basic — scripts: pages of commands.

A script has a name and pages, in the order in which their names came first. The names of all pages
and flags that the text mentions are kept beside them. A line that means nothing is kept as a broken
command at its place, with its number and its text, so that the rest of the page survives.
-/

namespace Gamebook

/-- A condition on flags. -/
structure Condition where
  /-- What is asked of the flags. -/
  polarity : ConditionPolarity
  /-- The names of the flags. -/
  flags : List String
deriving DecidableEq, Repr

/-- A change of flags. -/
structure Effect where
  /-- What is done to the flags. -/
  polarity : EffectPolarity
  /-- The names of the flags. -/
  flags : List String
deriving DecidableEq, Repr

/-- Where a jump or an option leads. -/
inductive Destination where
  /-- To a page. -/
  | page (name : String)
  /-- Nowhere: the page goes on. -/
  | stayHere
  /-- To the page one came from. -/
  | goBack
deriving DecidableEq, Repr

/-- Where a jump or an option leads, what it asks for and what it changes. -/
structure Transition where
  /-- Where it leads. -/
  destination : Destination
  /-- When it is open. -/
  conditions : List Condition
  /-- What it changes. -/
  effects : List Effect
deriving DecidableEq, Repr

/-- An option of a menu. -/
structure ChoiceOption where
  /-- What is shown; a fallback option shows nothing. -/
  text : Option String
  /-- It is taken when the menu is dismissed. -/
  isCancel : Bool
  /-- It is taken when the time is over. -/
  isTimeout : Bool
  /-- What taking it does. -/
  transition : Transition
deriving DecidableEq, Repr

/-- How a page ends. -/
inductive PageEndMode where
  /-- By returning. -/
  | ret
  /-- By going back. -/
  | back
deriving DecidableEq, Repr

/-- What a page consists of. -/
inductive Command where
  /-- A line of the story. -/
  | textLine (kind : MessageKind) (conditions : List Condition) (text : String)
  /-- A menu. -/
  | choice (time : Option TimeLimit) (options : List ChoiceOption)
  /-- A jump. -/
  | goto (transition : Transition)
  /-- A command for the engine, with its arguments as they are written. -/
  | exec (name : String) (args : List String)
  /-- The end of the page. -/
  | pageEnd (mode : PageEndMode)
  /-- A line that means nothing. -/
  | broken (line : Nat) (source : String)
deriving DecidableEq, Repr

/-- A page. -/
structure Page where
  /-- The name of the page. -/
  name : String
  /-- What the page consists of. -/
  commands : List Command
deriving DecidableEq, Repr

/-- Put a page among the others: in the place of the page of the same name, or else at the end. -/
def Page.insert (page : Page) : List Page → List Page
  | [] => [page]
  | p :: ps => if p.name = page.name then page :: ps else p :: page.insert ps

/-- A script. -/
structure Script where
  /-- The name in the header. -/
  name : String
  /-- The names of the pages that the text mentions. -/
  pageNames : List String
  /-- The names of the flags that the text mentions. -/
  flagNames : List String
  /-- The pages, each name once. -/
  pages : List Page
deriving DecidableEq, Repr

/-- A line that means nothing, with the page it is on. -/
structure BrokenLine where
  /-- The name of the page. -/
  page : String
  /-- The number of the line. -/
  line : Nat
  /-- The line, trimmed and without its comment. -/
  source : String
deriving DecidableEq, Repr

/-- The broken lines of a page. -/
def Page.brokenLines (page : Page) : List BrokenLine :=
  page.commands.filterMap fun
    | .broken line source => some ⟨page.name, line, source⟩
    | _ => none

/-- The broken lines of a script, page by page. -/
def Script.brokenLines (script : Script) : List BrokenLine := script.pages.flatMap Page.brokenLines

/-! ## Small lemmas -/

/-- Putting a page in changes no name and adds one at most, at the end. -/
theorem Page.map_name_insert (page : Page) (pages : List Page) :
    (page.insert pages).map Page.name = insertNew (pages.map Page.name) page.name := by
  induction pages with
  | nil => simp [Page.insert, insertNew]
  | cons p ps ih =>
    rw [Page.insert]
    split
    next h => simp [insertNew, h]
    next h =>
      simp only [List.map_cons, ih, insertNew]
      by_cases hp : page.name ∈ ps.map Page.name
      · simp [hp]
      · simp [hp, Ne.symm h]

end Gamebook
