import Gamebook.Check.Declaration

/-!
Gamebook.Check.Reference — names that are used, and words in the wrong place.

References are looked for in the code of a line only. A page or flag must be declared somewhere in
the text, a command must be listed in the catalog; without a catalog, commands are left alone. Lines
that declare a kind of names are not searched for references of that kind.
-/

namespace Gamebook

open Text

/-- What the checks of a line rest on. -/
structure Declared where
  /-- The pages of the text. -/
  pages : List String
  /-- The flags of the text. -/
  flags : List String
  /-- The commands of the engine. -/
  catalog : Catalog
deriving DecidableEq, Repr

namespace Declared

/-- What a text declares, beside a catalog. -/
def ofLines (catalog : Catalog) (lines : List Line) : Declared :=
  ⟨declaredNames .page (declarations lines), declaredNames .flag (declarations lines), catalog⟩

end Declared

/-- A mark on all that was matched. -/
def Line.markHit (line : Line) (hit : Hit) (cause : Cause) : Mark :=
  line.markSegment hit.whole cause

/-! ## References -/

/-- Marks on meta targets that stand in the place of a page's name. -/
def metaMarks (line : Line) : List Mark :=
  (line.hits .metaRef).map fun hit =>
    line.markHit hit (.metaDeclared (String.ofList hit.whole.text))

/-- Marks on pages that are not declared. What has a caret is not a page. -/
def pageMarks (d : Declared) (line : Line) : List Mark :=
  (line.hits .pageRef).filterMap fun hit =>
    if hit.lead = ['@'] ∧ String.ofList hit.body ∉ d.pages then
      some (line.markHit hit (.undeclared .page (String.ofList hit.body)))
    else none

/-- Marks on flags that are not declared. -/
def flagMarks (d : Declared) (line : Line) : List Mark :=
  (line.hits .flagRef).filterMap fun hit =>
    if String.ofList hit.body ∉ d.flags then
      some (line.markHit hit (.undeclared .flag (String.ofList hit.body)))
    else none

/-- Marks on commands that the catalog does not list. -/
def unknownCommandMarks (d : Declared) (line : Line) : List Mark :=
  (line.hits .execRef).filterMap fun hit =>
    if d.catalog.contains (String.ofList hit.body) then none
    else some (line.markHit hit (.unknownCommand (String.ofList hit.body)))

/-- Marks on the references of a line. -/
def referenceMarks (d : Declared) (line : Line) : List Mark :=
  (if line.keyword? = some .page then metaMarks line else pageMarks d line) ++
  (if line.keyword? = some .flag then [] else flagMarks d line) ++
  (if d.catalog.isEmpty then [] else unknownCommandMarks d line)

end Gamebook
