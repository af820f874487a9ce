import Gamebook.CommandLine.Path

/-!
Gamebook.CommandLine.FileTree — files in memory, and what can go wrong when a file is read.

A run takes the reading of files as a parameter. The program reads them from the system and names
what goes wrong by `ReadFault`; a `FileTree` is what stands in for the system where a run must not
depend on one. It holds its files in memory, and reading from it fails where, and as, the system
would.

A tree holds files by their relative paths; the directories are those that the paths need. A path is
followed piece by piece: only a directory leads further, and `..` leads one directory up. Above the
top of the tree, and at the root that a leading slash stands for, there are directories of which
nothing is known but that they lead upwards.
-/

namespace Gamebook

/-- Why a file cannot be read. -/
inductive ReadFault where
  /-- There is no such file. -/
  | notFound
  /-- The path leads to a directory. -/
  | isDirectory
  /-- The path leads through a file. -/
  | notDirectory
  /-- The path, or one of its pieces, is longer than the system allows. -/
  | nameTooLong
  /-- The file does not hold text. -/
  | notText
  /-- Any other reason that the system gives. -/
  | other (reason : String)
deriving DecidableEq, Repr

/-- What is said about the fault. -/
def ReadFault.message : ReadFault → String
  | notFound => "No such file or directory (os error 2)"
  | isDirectory => "Is a directory (os error 21)"
  | notDirectory => "Not a directory (os error 20)"
  | nameTooLong => "File name too long (os error 36)"
  | notText => "stream did not contain valid UTF-8"
  | other reason => reason

/-- The text that bytes hold. -/
def decodeText (bytes : ByteArray) : Except ReadFault String :=
  match String.fromUTF8? bytes with
  | some text => .ok text
  | none => .error .notText

/-! ## Places -/

/-- Where a path has led. -/
inductive Place where
  /-- Into the tree, along these pieces from its top. -/
  | inside (pieces : List String)
  /-- To a directory outside of the tree. -/
  | outside
deriving DecidableEq, Repr

namespace Place

/-- The greatest number of bytes in a piece of a path. -/
def maxPieceLength : Nat := 255

/-- One directory up. Nothing outside leads back into the tree, and the root is its own parent. -/
def parent : Place → Place
  | inside [] => outside
  | inside pieces => inside pieces.dropLast
  | outside => outside

/-- Follow one piece from a directory on. -/
def enter (place : Place) (piece : String) : Except ReadFault Place :=
  if isIdlePiece piece.toList then .ok place
  else if piece = ".." then .ok place.parent
  else if maxPieceLength < piece.utf8ByteSize then .error .nameTooLong
  else match place with
    | inside pieces => .ok (inside (pieces ++ [piece]))
    | outside => .error .notFound

end Place

/-! ## Trees -/

/-- Files by their paths, each path as the list of its pieces. -/
structure FileTree where
  /-- The files. -/
  files : List (List String × ByteArray)

namespace FileTree

/-- The pieces of a path. -/
def piecesOf (path : String) : List String := (Text.pieces '/' path.toList).map String.ofList

/-- The pieces of a path that name something. -/
def keyOf (path : String) : List String :=
  (piecesOf path).filter fun piece => !isIdlePiece piece.toList

/-- The tree of files with these paths. -/
def ofList (files : List (String × ByteArray)) : FileTree :=
  ⟨files.map fun (path, bytes) => (keyOf path, bytes)⟩

/-- The file at a place. -/
def file? (t : FileTree) : Place → Option ByteArray
  | .inside pieces => t.files.lookup pieces
  | .outside => none

/-- There is a directory at a place: the top of the tree, what the path of a file needs, or anything
outside. -/
def isDirectory (t : FileTree) : Place → Bool
  | .inside pieces => pieces == [] || t.files.any fun f => pieces.isPrefixOf f.1 && pieces != f.1
  | .outside => true

/-- Follow pieces from a place on. -/
def follow (t : FileTree) (place : Place) : List String → Except ReadFault Place
  | [] => .ok place
  | piece :: pieces =>
    if (t.file? place).isSome then .error .notDirectory
    else if !t.isDirectory place then .error .notFound
    else match place.enter piece with
      | .ok next => t.follow next pieces
      | .error fault => .error fault

/-- The greatest number of bytes in a path. -/
def maxPathLength : Nat := 4095

/-- Where a path starts: at the root, or at the top of the tree. -/
def startOf (path : String) : Place :=
  if path.toList.head? = some '/' then .outside else .inside []

/-- Read the file at a path. -/
def read (t : FileTree) (path : String) : Except ReadFault String := do
  if maxPathLength < path.utf8ByteSize then .error .nameTooLong
  else
    let place ← t.follow (startOf path) (piecesOf path)
    if t.isDirectory place then .error .isDirectory
    else match t.file? place with
      | some bytes => decodeText bytes
      | none => .error .notFound

end FileTree

end Gamebook
