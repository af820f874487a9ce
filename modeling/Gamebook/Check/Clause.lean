import Gamebook.Check.Line

/-!
Gamebook.Check.Clause — clauses that are joined or out of place, and negations of nothing.

Time limits belong on CHOICE lines, special labels on IS lines, effects on IS and TO lines, and
conditions on these and on text lines. `mode:not` has to stand right in front of the clause that it
negates. Of clauses that are joined by a comma, only the first place on a line is marked.
-/

namespace Gamebook

open Text

/-- A mark on what a pattern captured. -/
def Line.markCaptured (line : Line) (hit : Hit) (cause : Cause) : Mark :=
  line.markSegment hit.captured cause

/-- A mark on the first match. -/
def firstMark (line : Line) (p : Pattern) (cause : Cause) : List Mark :=
  ((line.hits p).take 1).map fun hit => line.markCaptured hit cause

/-- Marks on clauses with another clause behind a comma. -/
def joinMarks (line : Line) : List Mark :=
  firstMark line .conditionJoin .joinedConditions ++ firstMark line .effectJoin .joinedEffects

/-- The line leads somewhere, so it may have conditions and effects. -/
def Line.isTransition (line : Line) : Bool :=
  line.keyword? == some .is || line.keyword? == some .goto

/-- Marks on words that do not belong on a line of this kind. -/
def placementMarks (line : Line) : List Mark :=
  (if line.keyword? = some .choice then []
    else (line.hits .timeRef).map fun hit => line.markSegment hit.whole .misplacedTime) ++
  (if line.keyword? = some .is then []
    else (line.hits .specialRef).map fun hit =>
      line.markSegment hit.whole (.misplacedSpecial (String.ofList hit.whole.text))) ++
  (if line.isTransition || line.isText then []
    else (line.hits .conditionClause).map fun hit => line.markCaptured hit .misplacedCondition) ++
  (if line.isTransition then []
    else (line.hits .effectClause).map fun hit => line.markCaptured hit .misplacedEffect)

/-- The word is a clause, and not a negation. -/
def isClauseWord (word : List Char) : Bool :=
  (clauseWord? word).isSome && !startsWith negation word

/-- What `word` is a negation of nothing: it is `mode:not`, alone or with a marker at its end, and
no clause follows. A word with a marker at its end is the last one of a text line. -/
def isDangling (word : List Char) (behind : List Segment) : Bool :=
  match dropPrefix? negation word with
  | some [] => match behind with
    | next :: _ => !isClauseWord next.text
    | [] => true
  | some ['>'] => true
  | some ['-'] => true
  | _ => false

/-- Marks on the negations among the words that no clause follows. -/
def negationMarksIn (line : Line) : List Segment → List Mark
  | [] => []
  | word :: behind =>
    (if isDangling word.text behind then
      [⟨line, ⟨word.start, word.start + byteLength negation⟩, .danglingNegation⟩] else []) ++
    negationMarksIn line behind

/-- Marks on the negations of a line that no clause follows. -/
def negationMarks (line : Line) : List Mark := negationMarksIn line (segments line.code)

end Gamebook
