import Gamebook.Text.Pieces

/-!
Gamebook.CommandLine.Path — paths, and the place where a catalog is looked for.

A path is a head, `/` or a single leading dot or nothing, and pieces between slashes. Pieces that
are empty or a single dot name nothing. The directory of a path is what is left when the last
piece that names something is dropped, and all that names nothing behind the one before it; what
stands further left is kept as it is written.
-/

namespace Gamebook

open Text

/-- The pieces with a slash between each two. -/
def joinSlash (ps : List (List Char)) : List Char := List.intercalate ['/'] ps

/-- The piece names nothing. -/
def isIdlePiece (piece : List Char) : Bool := piece == [] || piece == ['.']

/-- The pieces up to the last one that names something. -/
def dropIdle (ps : List (List Char)) : List (List Char) :=
  (ps.reverse.dropWhile isIdlePiece).reverse

/-- The head of a path, and the rest. A leading dot is a head when it is a piece by itself. -/
def splitHead : List Char → List Char × List Char
  | '/' :: s => (['/'], s)
  | ['.'] => (['.'], [])
  | '.' :: '/' :: s => (['.'], '/' :: s)
  | s => ([], s)

/-- The directory of a path; none for a path that names nothing but the root, or nothing at all. -/
def directory? (path : List Char) : Option (List Char) :=
  let (head, rest) := splitHead path
  match dropIdle (pieces '/' rest) with
  | [] => if head = ['.'] then some [] else none
  | p :: ps => some (head ++ joinSlash (dropIdle (p :: ps).dropLast))

/-- A name inside a directory. -/
def inDirectory (dir : List Char) (name : List Char) : List Char :=
  match dir.getLast? with
  | none => name
  | some '/' => dir ++ name
  | some _ => dir ++ '/' :: name

/-- The name of the file that an engine writes its catalog to. -/
def catalogFile : String := "executes.json"

/-- Where the catalog of a script is looked for: beside the script. -/
def defaultCatalogPath (script : String) : String :=
  String.ofList (inDirectory ((directory? script.toList).getD []) catalogFile.toList)

end Gamebook
