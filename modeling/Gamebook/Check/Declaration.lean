import Gamebook.Check.Line

/-!
Gamebook.Check.Declaration — the header, and the names that a text declares.

A PAGE line declares the page that its first argument names, a FLAG line the flag of each argument.
The name is the run of word characters behind the sigil, whatever follows it. Pages and flags are
told apart; a name that is declared again is marked at each place but the first one.
-/

namespace Gamebook

open Text

/-- The character in front of a name of this kind. -/
def NameKind.sigil : NameKind → Char
  | page => '@'
  | flag => '$'

/-- The name that an argument declares: the word characters behind the sigil, one at least. -/
def declaredName? (kind : NameKind) (word : List Char) : Option (List Char) :=
  match word with
  | c :: rest => if c = kind.sigil ∧ wordRun rest ≠ [] then some (wordRun rest) else none
  | [] => none

/-- A place at which a name is declared. -/
structure Declaration where
  /-- The line of the declaration. -/
  line : Line
  /-- The place of the sigil and the name. -/
  span : Span
  /-- What is declared. -/
  kind : NameKind
  /-- The name. -/
  name : String
deriving DecidableEq, Repr

/-- The declaration that an argument makes. -/
def Declaration.ofArgument? (line : Line) (kind : NameKind) (arg : Segment) : Option Declaration :=
  (declaredName? kind arg.text).map fun name =>
    ⟨line, ⟨arg.start, arg.start + 1 + byteLength name⟩, kind, String.ofList name⟩

/-- The declarations on a line. -/
def Line.declarations (line : Line) : List Declaration :=
  match line.keyword? with
  | some .page =>
    ((line.arguments .page).take 1).filterMap (Declaration.ofArgument? line .page)
  | some .flag => (line.arguments .flag).filterMap (Declaration.ofArgument? line .flag)
  | _ => []

/-- The declarations of a text, in their order. -/
def declarations (lines : List Line) : List Declaration := lines.flatMap Line.declarations

/-- The names of one kind. -/
def declaredNames (kind : NameKind) (ds : List Declaration) : List String :=
  ds.filterMap fun d => if d.kind = kind then some d.name else none

/-- Marks on declarations of names that were declared before; `seen` are the ones in front. -/
def duplicateMarks (seen : List (NameKind × String)) : List Declaration → List Mark
  | [] => []
  | d :: ds =>
    if (d.kind, d.name) ∈ seen then
      ⟨d.line, d.span, .duplicate d.kind d.name⟩ :: duplicateMarks seen ds
    else duplicateMarks ((d.kind, d.name) :: seen) ds

/-- The finding for a text whose first line does not start with DEFINE, whatever follows these
letters. The place is the first column, also of an empty line. -/
def headerFindings (lines : List Line) : List Finding :=
  match lines with
  | line :: _ =>
    if startsWith Keyword.define.letters line.trimmed then [] else [⟨1, ⟨1, 2⟩, .noHeader⟩]
  | [] => [⟨1, ⟨1, 2⟩, .noHeader⟩]

/-- Marks on all lines that open with DEFINE but the first of them. -/
def repeatedHeaderMarks (lines : List Line) : List Mark :=
  ((lines.filter fun line => line.keyword? = some .define).drop 1).map fun line =>
    ⟨line, line.keywordSpan .define, .repeatedHeader⟩

end Gamebook
