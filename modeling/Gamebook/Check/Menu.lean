import Gamebook.Check.Line

/-!
Gamebook.Check.Menu — following the menu that is open.

A CHOICE line opens a menu, an IS line adds an option to it, and any other line of code closes it.
An IS line without a menu opens one that has no time limit. `/SAME` needs an option before it in
the menu, and `/TIMEUP` a time limit.
-/

namespace Gamebook

/-- What the checks know of the menu that is open. -/
structure MenuState where
  /-- The menu has a time limit. -/
  timed : Bool
  /-- The number of options up to now. -/
  options : Nat
deriving DecidableEq, Repr

namespace MenuState

/-- A menu without a time limit and without options. -/
def untimed : MenuState := ⟨false, 0⟩

/-- The open menu behind a line of code. -/
def next (menu : Option MenuState) (line : Line) : Option MenuState :=
  match line.keyword? with
  | some .choice => some ⟨(line.arguments .choice).any fun a => ArgKind.time.accepts a.text, 0⟩
  | some .is =>
    let state := menu.getD untimed
    some { state with options := state.options + 1 }
  | _ => none

/-- The cause for the label of an option in this menu. -/
def labelCause? (state : MenuState) (label : List Char) : Option Cause :=
  match Special.ofWord? label with
  | some .same => if state.options = 0 then some .nothingToRepeat else none
  | some .timeup => if state.timed then none else some .noTimeLimit
  | _ => none

/-- Marks on the label of an option; `menu` is the open menu in front of the line. -/
def marks (menu : Option MenuState) (line : Line) (k : Keyword) : List Mark :=
  match k, line.arguments k with
  | .is, label :: _ =>
    ((labelCause? (menu.getD untimed) label.text).map (line.markSegment label)).toList
  | _, _ => []

end MenuState

end Gamebook
