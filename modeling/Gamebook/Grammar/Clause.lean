import Gamebook.Text.Affix
import Gamebook.Text.WordChar

/-!
Gamebook.Grammar.Clause — conditions and effects over flags.

A clause is a name, a colon and flags with commas between them: `true:$a,$b`. Four names are
conditions, two are effects, and the word `mode:not` in front of a clause turns it into its
opposite. The opposite of "all are true" is "one of them is false", and so on; `negate_negate`
says that the opposite of the opposite is the clause itself.
-/

namespace Gamebook

/-- What a condition asks of its flags. -/
inductive ConditionPolarity where
  /-- All flags are set. -/
  | allTrue
  /-- No flag is set. -/
  | allFalse
  /-- At least one flag is set. -/
  | anyTrue
  /-- At least one flag is not set. -/
  | anyFalse
deriving DecidableEq, Repr

namespace ConditionPolarity

/-- The condition that holds exactly where this one fails. -/
def negate : ConditionPolarity → ConditionPolarity
  | allTrue => anyFalse
  | anyFalse => allTrue
  | allFalse => anyTrue
  | anyTrue => allFalse

@[simp] theorem negate_negate (p : ConditionPolarity) : p.negate.negate = p := by cases p <;> rfl

end ConditionPolarity

/-- What an effect does to its flags. -/
inductive EffectPolarity where
  /-- The flags are set. -/
  | setTrue
  /-- The flags are cleared. -/
  | setFalse
deriving DecidableEq, Repr

namespace EffectPolarity

/-- The effect that leaves the opposite value. -/
def negate : EffectPolarity → EffectPolarity
  | setTrue => setFalse
  | setFalse => setTrue

@[simp] theorem negate_negate (p : EffectPolarity) : p.negate.negate = p := by cases p <;> rfl

end EffectPolarity

/-- The six kinds of clauses. -/
inductive ClauseKind where
  /-- A condition. -/
  | condition (polarity : ConditionPolarity)
  /-- An effect. -/
  | effect (polarity : EffectPolarity)
deriving DecidableEq, Repr

namespace ClauseKind

/-- The kinds of conditions. -/
def conditions : List ClauseKind :=
  [condition .allTrue, condition .allFalse, condition .anyTrue, condition .anyFalse]

/-- The kinds of effects. -/
def effects : List ClauseKind := [effect .setTrue, effect .setFalse]

/-- All kinds of clauses. -/
def all : List ClauseKind := conditions ++ effects

/-- The name of the clause, without the colon. -/
def name : ClauseKind → String
  | condition .allTrue => "true"
  | condition .allFalse => "false"
  | condition .anyTrue => "true-or"
  | condition .anyFalse => "false-or"
  | effect .setTrue => "to-true"
  | effect .setFalse => "to-false"

/-- The characters of the name. -/
def letters (k : ClauseKind) : List Char := k.name.toList

/-- How a clause of this kind begins: its name and the colon. -/
def opening (k : ClauseKind) : List Char := k.letters ++ [':']

/-- The kind of clauses with this name. -/
def ofName? (name : List Char) : Option ClauseKind := all.find? fun k => k.letters = name

/-- The opposite kind, in the same family. -/
def negate : ClauseKind → ClauseKind
  | condition p => condition p.negate
  | effect p => effect p.negate

@[simp] theorem negate_negate (k : ClauseKind) : k.negate.negate = k := by cases k <;> simp [negate]

/-- The first of `kinds` that the text opens with, and the text behind its colon. Every name ends at
its colon, so the order of the kinds does not matter. -/
def opening? (kinds : List ClauseKind) (s : List Char) : Option (ClauseKind × List Char) :=
  kinds.findSome? fun k => (Text.dropPrefix? k.opening s).map fun rest => (k, rest)

end ClauseKind

/-- A clause with its flags, in the order of the text. -/
structure Clause where
  /-- Which of the six clauses it is. -/
  kind : ClauseKind
  /-- The names of the flags. -/
  flags : List String
deriving DecidableEq, Repr

/-- The word that turns the clause behind it into its opposite. -/
def negation : List Char := "mode:not".toList

/-- The characters that may stand behind the colon of a clause: word characters, `$` and commas. -/
def isFlagListChar (c : Char) : Bool := c == '$' || c == ',' || Text.isWordChar c

/-- The clause-shaped word at the start of the text, `mode:not` or a clause with its flags, and the
text behind it. -/
def clauseWord? (s : List Char) : Option (List Char × List Char) :=
  match Text.dropPrefix? negation s with
  | some rest => some (negation, rest)
  | none => (ClauseKind.opening? ClauseKind.all s).map fun (k, rest) =>
      (k.opening ++ rest.takeWhile isFlagListChar, rest.dropWhile isFlagListChar)

/-! ## Small lemmas -/

theorem ClauseKind.opening?_eq_some {kinds : List ClauseKind} {s rest : List Char} {k : ClauseKind}
    (h : ClauseKind.opening? kinds s = some (k, rest)) : k ∈ kinds ∧ s = k.opening ++ rest := by
  obtain ⟨j, hj, hd⟩ := List.exists_of_findSome?_eq_some h
  obtain ⟨r, hr, he⟩ := Option.map_eq_some_iff.1 hd
  cases he
  exact ⟨hj, Text.dropPrefix?_eq_some_iff.1 hr⟩

/-- A clause-shaped word and what follows it make up the text. -/
theorem append_of_clauseWord? {s word rest : List Char} (h : clauseWord? s = some (word, rest)) :
    s = word ++ rest := by
  rw [clauseWord?] at h
  split at h
  next r hr =>
    cases h
    exact Text.dropPrefix?_eq_some_iff.1 hr
  next =>
    obtain ⟨⟨k, r⟩, hk, he⟩ := Option.map_eq_some_iff.1 h
    cases he
    rw [List.append_assoc, List.takeWhile_append_dropWhile]
    exact (ClauseKind.opening?_eq_some hk).2

/-- A clause-shaped word is not empty. -/
theorem ne_nil_of_clauseWord? {s word rest : List Char} (h : clauseWord? s = some (word, rest)) :
    word ≠ [] := by
  rw [clauseWord?] at h
  split at h
  next r hr => cases h; decide
  next =>
    obtain ⟨⟨k, r⟩, -, he⟩ := Option.map_eq_some_iff.1 h
    cases he
    simp [ClauseKind.opening]

/-- What follows a clause-shaped word is shorter than the text. -/
theorem length_lt_of_clauseWord? {s word rest : List Char} (h : clauseWord? s = some (word, rest)) :
    rest.length < s.length := by
  have hw := List.length_pos_iff.2 (ne_nil_of_clauseWord? h)
  rw [append_of_clauseWord? h, List.length_append]
  omega

end Gamebook
