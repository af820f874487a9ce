import Gamebook.Grammar.Clause
import Gamebook.Text.Segment

/-!
Gamebook.Script.Layout — where the pieces of a text line stand.

A text line is a line of the story: clause-shaped words, then a marker, then the text. The marker
is `>` for a new message and `-` for more of the running one. Blanks stand between the words; the
marker may stand at the end of the last word. A line whose first words are not clause-shaped is no
text line.
-/

namespace Gamebook

open Text

/-- Whether a text line opens a message or continues it. -/
inductive MessageKind where
  /-- `>`: a new message. -/
  | start
  /-- `-`: the running message goes on. -/
  | append
deriving DecidableEq, Repr

namespace MessageKind

/-- The marker of the kind. -/
def marker : MessageKind → Char
  | start => '>'
  | append => '-'

/-- The kind that a character marks. -/
def ofMarker? (c : Char) : Option MessageKind :=
  if c = '>' then some start else if c = '-' then some append else none

theorem ofMarker?_eq_some_iff {c : Char} {k : MessageKind} :
    ofMarker? c = some k ↔ c = k.marker := by
  cases k <;> simp only [ofMarker?, marker] <;> split <;> simp_all

end MessageKind

/-- The pieces of a text line, by byte offsets in the line. -/
structure Layout where
  /-- What the marker says. -/
  kind : MessageKind
  /-- The clause-shaped words in front of the marker. -/
  clauses : List Segment
  /-- The offset of the marker. -/
  marker : Nat
  /-- The offset of the text: behind the marker, and behind one space or tab that follows it. -/
  textStart : Nat
deriving DecidableEq, Repr

namespace Layout

/-- One more clause-shaped word in front. -/
def addClause (word : Segment) (l : Layout) : Layout := { l with clauses := word :: l.clauses }

/-- How much of the blank space behind the marker is dropped: one space or tab. -/
def gapLength : List Char → Nat
  | c :: _ => if c = ' ' ∨ c = '\t' then 1 else 0
  | [] => 0

/-- What may follow a clause-shaped word on a text line: a blank or a marker. -/
def wordEnds : List Char → Bool
  | c :: _ => isBlank c || (MessageKind.ofMarker? c).isSome
  | [] => false

/-- The layout of a line from byte `pos` on, where `s` stands. -/
def layoutFrom? (pos : Nat) (s : List Char) : Option Layout :=
  let rest := trimStart s
  let here := pos + byteLength (s.takeWhile isBlank)
  match rest with
  | [] => none
  | c :: after =>
    match MessageKind.ofMarker? c with
    | some kind => some ⟨kind, [], here, here + 1 + gapLength after⟩
    | none =>
      match _h : clauseWord? (trimStart s) with
      | none => none
      | some (word, behind) =>
        if wordEnds behind then
          (layoutFrom? (here + byteLength word) behind).map (addClause ⟨here, word⟩)
        else none
termination_by s.length
decreasing_by
  have := length_lt_of_clauseWord? _h
  have := (List.dropWhile_sublist isBlank (l := s)).length_le
  rw [trimStart] at *
  omega

end Layout

/-- The layout of the line, if it is a text line. -/
def layout? (line : List Char) : Option Layout := Layout.layoutFrom? 0 line

end Gamebook
