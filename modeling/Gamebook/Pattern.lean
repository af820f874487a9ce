import Gamebook.Grammar.Clause
import Gamebook.Grammar.Marker
import Gamebook.Text.Segment

/-!
Gamebook.Pattern — the shapes that are looked for anywhere in a line.

A pattern is tried at one place after the other, from left to right, and the search goes on behind
each match, so matches never overlap. What a pattern matches has a `lead`, which only fixes the
place, and a `body`, which is what the match is about: a name, a keyword of a clause, two clauses
glued together.

## Shapes

* references: `@name` and `@^NAME`, `$name`, `#NAME`;
* fixed words: `@^HERE`, `time:short`, `/SAME` and their like;
* the opening of a clause, and two clauses joined by a comma, both where neither a word character
  nor a hyphen stands in front;
* a clause-shaped word, at the start of the text only.
-/

namespace Gamebook

open Text

/-- The names of the patterns. -/
inductive Pattern where
  /-- `@name`, or `@^name` with a caret. -/
  | pageRef
  /-- `$name`. -/
  | flagRef
  /-- `#NAME`. -/
  | execRef
  /-- `@^HERE` or `@^BACK`, whatever follows. -/
  | metaRef
  /-- `time:` and a time limit, whatever follows. -/
  | timeRef
  /-- A special label at whose end a word ends. -/
  | specialRef
  /-- The opening of a condition. -/
  | conditionClause
  /-- The opening of an effect. -/
  | effectClause
  /-- A condition with another clause behind a comma. -/
  | conditionJoin
  /-- An effect with another clause behind a comma. -/
  | effectJoin
  /-- A clause-shaped word at the start of the text. -/
  | clauseWord
deriving DecidableEq, Repr

/-- What a pattern matched, and where. -/
structure Hit where
  /-- The byte offset of the match. -/
  start : Nat
  /-- The part that is not captured. -/
  lead : List Char
  /-- The part that is captured. -/
  body : List Char
deriving DecidableEq, Repr

namespace Hit

/-- All that was matched. -/
def whole (h : Hit) : Segment := ⟨h.start, h.lead ++ h.body⟩

/-- The captured part. -/
def captured (h : Hit) : Segment := ⟨h.start + byteLength h.lead, h.body⟩

end Hit

/-- The characters of the names of commands: capital letters and digits of ASCII, and `_`. -/
def isCommandChar (c : Char) : Bool := c.isUpper || c.isDigit || c == '_'

/-- The name of a page, flag or command behind its sigil: a run that is not empty. -/
def nonemptyRun? (lead : List Char) (run : List Char) : Option (List Char × List Char) :=
  if run = [] then none else some (lead, run)

/-- The word that ends here: nothing follows, or no word character. -/
def endsWord : List Char → Bool
  | [] => true
  | c :: _ => !isWordChar c

/-- Try `find` at the start of a text, or else behind one character that neither belongs to a word
nor is a hyphen. -/
def isolated? (find : List Char → Option (List Char)) (atStart : Bool) (s : List Char) :
    Option (List Char × List Char) :=
  match (if atStart then find s else none) with
  | some body => some ([], body)
  | none => match s with
    | [] => none
    | c :: rest =>
      if isWordChar c || c == '-' then none else (find rest).map fun body => ([c], body)

/-- The opening of one of `kinds`. -/
def clauseOpening? (kinds : List ClauseKind) (s : List Char) : Option (List Char) :=
  (ClauseKind.opening? kinds s).map fun (k, _) => k.opening

/-- A comma and the opening of a clause. -/
def commaOpening? : List Char → Option (List Char)
  | ',' :: s => (clauseOpening? ClauseKind.all s).map (',' :: ·)
  | _ => none

/-- The longest stretch of flag-list characters, one at least, that a comma and the opening of a
clause follow, with these two at its end. -/
def joinTail? : List Char → Option (List Char)
  | [] => none
  | c :: s =>
    if isFlagListChar c then
      match joinTail? s with
      | some tail => some (c :: tail)
      | none => (commaOpening? s).map (c :: ·)
    else none

/-- A clause of one of `kinds` to which another clause is joined by a comma, up to the colon of the
other one. -/
def joinedClauses? (kinds : List ClauseKind) (s : List Char) : Option (List Char) :=
  match ClauseKind.opening? kinds s with
  | some (k, rest) => (joinTail? rest).map (k.opening ++ ·)
  | none => none

namespace Pattern

/-- The match that starts where the text starts: its lead and its body. `atStart` tells whether
nothing stands in front of the text. -/
def at? (atStart : Bool) : Pattern → List Char → Option (List Char × List Char)
  | pageRef, s => match s with
    | '@' :: '^' :: rest => nonemptyRun? ['@', '^'] (wordRun rest)
    | '@' :: rest => nonemptyRun? ['@'] (wordRun rest)
    | _ => none
  | flagRef, s => match s with
    | '$' :: rest => nonemptyRun? ['$'] (wordRun rest)
    | _ => none
  | execRef, s => match s with
    | '#' :: rest => nonemptyRun? ['#'] (rest.takeWhile isCommandChar)
    | _ => none
  | metaRef, s => match s with
    | '@' :: '^' :: rest =>
      (MetaTarget.all.find? fun t => startsWith t.letters rest).map fun t => (['@', '^'], t.letters)
    | _ => none
  | timeRef, s => match dropPrefix? TimeLimit.sigil s with
    | some rest =>
      (TimeLimit.all.find? fun t => startsWith t.letters rest).map fun t =>
        (TimeLimit.sigil, t.letters)
    | none => none
  | specialRef, s =>
    (Special.all.find? fun m => match dropPrefix? m.letters s with
      | some rest => endsWord rest
      | none => false).map fun m => (['/'], m.letters.drop 1)
  | conditionClause, s => isolated? (clauseOpening? ClauseKind.conditions) atStart s
  | effectClause, s => isolated? (clauseOpening? ClauseKind.effects) atStart s
  | conditionJoin, s => isolated? (joinedClauses? ClauseKind.conditions) atStart s
  | effectJoin, s => isolated? (joinedClauses? ClauseKind.effects) atStart s
  | clauseWord, s => if atStart then (clauseWord? s).map fun (word, _) => ([], word) else none

/-- The matches in a text that stands at byte `pos`, of which the first `skip` characters belong to
the match before. -/
def scanFrom (p : Pattern) (atStart : Bool) (skip pos : Nat) : List Char → List Hit
  | [] => []
  | c :: s => match skip with
    | k + 1 => p.scanFrom false k (pos + c.utf8Size) s
    | 0 => match p.at? atStart (c :: s) with
      | some (lead, body) =>
        ⟨pos, lead, body⟩ ::
          p.scanFrom false (lead.length + body.length - 1) (pos + c.utf8Size) s
      | none => p.scanFrom false 0 (pos + c.utf8Size) s

/-- All matches in the text, from left to right; none overlaps another one. -/
def scan (p : Pattern) (s : List Char) : List Hit := p.scanFrom true 0 0 s

/-- The captured groups of a match, in order: of a page also the caret, which may be empty; of a
clause-shaped word none. -/
def groups (p : Pattern) (h : Hit) : List Segment :=
  match p with
  | pageRef => [⟨h.start + 1, h.lead.drop 1⟩, h.captured]
  | clauseWord => []
  | _ => [h.captured]

end Pattern

end Gamebook
