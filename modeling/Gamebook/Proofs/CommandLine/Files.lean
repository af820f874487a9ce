import Gamebook.CommandLine.Run
import Gamebook.Proofs.Text.Pieces

/-!
Gamebook.Proofs.CommandLine.Files — the files of a run.

* `run_congr`: two readers that agree on the files that a command line names give the same outcome.
  So a program may read these files first and decide the outcome then (`run_ofRead`).
* `FileTree.read_ofList`: a tree gives every file at the path that it was given for, when the path
  leads down to a name and no path of the tree leads through a file. Paths that stop above a file
  are refused as directories (`FileTree.read_above`).
* `FileTree.exists_file_of_read`: what a tree gives is what one of its files holds.
* `run_ofList`: a tree that holds the files of a run stands in for the system.

The walk along a path is `FileTree.follow_inside`, by induction on the pieces that are left. The
place it has come to and the names that are left always lead to a file of the tree together, so on
the way there is a directory and no file.
-/

namespace Gamebook

open Text

/-! ## Runs -/

section Runs

variable {read read' : FileReader}

theorem readCatalog_congr {path : String} (h : read path = read' path) :
    readCatalog read path = readCatalog read' path := by
  rw [readCatalog, readCatalog, h]

theorem Arguments.run_congr {args : Arguments}
    (h : ∀ path ∈ args.action.files, read path = read' path) (level : LogLevel) :
    args.run read level = args.run read' level := by
  obtain ⟨verbose, action⟩ := args
  cases action with
  | validate file catalog format =>
    have hfile : read file = read' file := h file (by simp [Action.files])
    have hcatalog := readCatalog_congr (h (catalog.getD (defaultCatalogPath file))
      (by simp [Action.files]))
    simp only [Arguments.run, runValidate, hfile, hcatalog]
  | parse file json =>
    have hfile : read file = read' file := h file (by simp [Action.files])
    simp only [Arguments.run, runParse, hfile]

/-- **A run depends on no file but those that the command line names.** -/
theorem run_congr {words : List String} (h : ∀ path ∈ namedFiles words, read path = read' path)
    (level : LogLevel) : run read level words = run read' level words := by
  unfold run
  cases hwords : Arguments.read words with
  | error refusal => rfl
  | ok args =>
    refine Arguments.run_congr (fun path hpath => h path ?_) level
    rw [namedFiles, hwords]
    exact hpath

theorem FileReader.ofRead_map {files : List String} {path : String} (h : path ∈ files) :
    FileReader.ofRead (files.map fun p => (p, read p)) path = read path := by
  have hlookup : (files.map fun p => (p, read p)).lookup path = some (read path) := by
    induction files with
    | nil => cases h
    | cons p files ih =>
      rw [List.map_cons, List.lookup_cons]
      by_cases hp : path = p
      · subst hp
        simp
      · rw [beq_false_of_ne hp]
        exact ih ((List.mem_cons.1 h).resolve_left hp)
  rw [FileReader.ofRead, hlookup, Option.getD_some]

/-- **Reading first changes nothing**: the outcome is the same when the files that the command line
names have been read before the run. -/
theorem run_ofRead (read : FileReader) (level : LogLevel) (words : List String) :
    run (.ofRead ((namedFiles words).map fun path => (path, read path))) level words =
      run read level words :=
  run_congr (fun _ hpath => FileReader.ofRead_map hpath) level

end Runs

/-! ## Trees -/

/-- Bytes that were written as text are read as this text. -/
theorem decodeText_toByteArray (text : String) : decodeText text.toByteArray = .ok text := by
  rw [decodeText, String.fromUTF8?, dif_pos text.isValidUTF8]
  rfl

namespace FileTree

/-- The piece names something. -/
def IsName (piece : String) : Prop := isIdlePiece piece.toList = false

/-- A path that leads down from the top of a tree. -/
structure IsPlain (path : String) : Prop where
  /-- It starts at the top of the tree. -/
  relative : startOf path = .inside []
  /-- It never leads up. -/
  down : ".." ∉ piecesOf path
  /-- No piece is too long. -/
  short : ∀ piece ∈ piecesOf path, piece.utf8ByteSize ≤ Place.maxPieceLength
  /-- The path is not too long. -/
  fits : path.utf8ByteSize ≤ maxPathLength

/-- The path ends with a name: a piece behind the last name would ask for a directory. -/
def EndsInName (pieces : List String) : Prop := ∀ piece ∈ pieces.getLast?, IsName piece

/-- No path of the tree leads through another file. -/
def PrefixFree (t : FileTree) : Prop := ∀ f ∈ t.files, ∀ g ∈ t.files, f.1 <+: g.1 → f = g

/-- The pieces that name something. -/
def names (pieces : List String) : List String :=
  pieces.filter fun piece => !isIdlePiece piece.toList

theorem names_cons_idle {piece : String} (h : isIdlePiece piece.toList = true)
    (pieces : List String) : names (piece :: pieces) = names pieces :=
  List.filter_cons_of_neg (by simp [h])

theorem names_cons_name {piece : String} (h : IsName piece) (pieces : List String) :
    names (piece :: pieces) = piece :: names pieces :=
  List.filter_cons_of_pos (by rw [show isIdlePiece piece.toList = false from h]; rfl)

theorem names_append (front rest : List String) :
    names (front ++ rest) = names front ++ names rest :=
  List.filter_append front rest

theorem EndsInName.tail {piece : String} {pieces : List String} (h : EndsInName (piece :: pieces)) :
    EndsInName pieces := by
  intro p hp
  refine h p ?_
  rw [List.getLast?_cons, Option.mem_def.1 hp]
  rfl

theorem EndsInName.names_ne_nil {pieces : List String} (h : EndsInName pieces)
    (hne : pieces ≠ []) : names pieces ≠ [] := by
  have hlast := h _ (List.getLast?_eq_some_getLast hne)
  intro hnil
  have hidle := List.filter_eq_nil_iff.1 hnil _ (List.getLast_mem hne)
  rw [show isIdlePiece (pieces.getLast hne).toList = false from hlast] at hidle
  exact hidle rfl

variable {t : FileTree} {key front rest : List String} {bytes : ByteArray}

/-! ### What stands in a tree -/

theorem mem_of_file? (h : t.file? (.inside key) = some bytes) : (key, bytes) ∈ t.files := by
  obtain ⟨front, rest, hfiles, -⟩ := List.lookup_eq_some_iff.1 h
  rw [hfiles]
  exact List.mem_append_right _ List.mem_cons_self

/-- The file at its path. -/
theorem file?_of_mem (hfree : t.PrefixFree) (hmem : (key, bytes) ∈ t.files) :
    t.file? (.inside key) = some bytes := by
  cases h : t.file? (.inside key) with
  | none => exact absurd (List.lookup_eq_none_iff.1 h _ hmem) (by simp)
  | some other =>
    have heq := hfree _ hmem _ (mem_of_file? h) (List.prefix_refl key)
    rw [(Prod.mk.inj heq).2]

/-- There is no directory where a file is. -/
theorem isDirectory_of_mem (hfree : t.PrefixFree) (hmem : (key, bytes) ∈ t.files)
    (hkey : key ≠ []) : t.isDirectory (.inside key) = false := by
  have hnone : ∀ f ∈ t.files, (key.isPrefixOf f.1 && key != f.1) = false := by
    intro f hf
    by_cases hpre : key <+: f.1
    · have heq := hfree _ hmem _ hf hpre
      simp [← heq]
    · simp [hpre]
  simp only [isDirectory, Bool.or_eq_false_iff, beq_eq_false_iff_ne]
  exact ⟨hkey, List.any_eq_false.2 fun f hf => by rw [hnone f hf]; exact Bool.false_ne_true⟩

/-- Above a file there is no file. -/
theorem file?_above (hfree : t.PrefixFree) (hmem : (front ++ rest, bytes) ∈ t.files)
    (hrest : rest ≠ []) : t.file? (.inside front) = none := by
  cases h : t.file? (.inside front) with
  | none => rfl
  | some other =>
    have heq := hfree _ (mem_of_file? h) _ hmem (List.prefix_append front rest)
    exact absurd (List.self_eq_append_right.1 (Prod.mk.inj heq).1) hrest

/-- Above a file there is a directory. -/
theorem isDirectory_above (hmem : (front ++ rest, bytes) ∈ t.files) (hrest : rest ≠ []) :
    t.isDirectory (.inside front) = true := by
  simp only [isDirectory, Bool.or_eq_true]
  refine Or.inr (List.any_eq_true.2 ⟨_, hmem, ?_⟩)
  simp [hrest]

/-! ### Reading -/

/-- A piece that does not lead up leads on by what it names. -/
theorem enter_inside {piece : String} (hdown : piece ≠ "..")
    (hshort : piece.utf8ByteSize ≤ Place.maxPieceLength) :
    Place.enter (.inside front) piece = .ok (.inside (front ++ names [piece])) := by
  unfold Place.enter
  cases hidle : isIdlePiece piece.toList with
  | true =>
    rw [if_pos rfl, names_cons_idle hidle]
    simp [names]
  | false =>
    rw [if_neg Bool.false_ne_true, if_neg hdown, if_neg (by omega), names_cons_name hidle]
    rfl

/-- The walk comes to every file and every directory: the place and the names that are left are what
leads there. -/
theorem follow_inside (hfree : t.PrefixFree) {pieces : List String}
    (hmem : (front ++ names pieces ++ rest, bytes) ∈ t.files) (hdown : ".." ∉ pieces)
    (hshort : ∀ piece ∈ pieces, piece.utf8ByteSize ≤ Place.maxPieceLength)
    (hend : rest = [] → EndsInName pieces) :
    t.follow (.inside front) pieces = .ok (.inside (front ++ names pieces)) := by
  induction pieces generalizing front with
  | nil => simp [follow, names]
  | cons piece pieces ih =>
    have hleft : names (piece :: pieces) ++ rest ≠ [] := by
      intro hnil
      obtain ⟨hnames, hrest⟩ := List.append_eq_nil_iff.1 hnil
      exact (hend hrest).names_ne_nil (List.cons_ne_nil piece pieces) hnames
    have hstep : Place.enter (.inside front) piece = .ok (.inside (front ++ names [piece])) :=
      enter_inside (fun h => hdown (h ▸ List.mem_cons_self)) (hshort _ List.mem_cons_self)
    have hsplit : front ++ names (piece :: pieces) = front ++ names [piece] ++ names pieces := by
      rw [List.append_assoc, ← names_append]
      rfl
    have habove : (front ++ (names (piece :: pieces) ++ rest), bytes) ∈ t.files := by
      rwa [← List.append_assoc]
    rw [follow, file?_above hfree habove hleft, isDirectory_above habove hleft, hstep, hsplit]
    exact ih (hsplit ▸ hmem) (fun h => hdown (List.mem_cons_of_mem _ h))
      (fun p hp => hshort p (List.mem_cons_of_mem _ hp)) (fun hrest => (hend hrest).tail)

theorem IsPlain.follow {path : String} (hplain : IsPlain path) (hfree : t.PrefixFree)
    (hmem : (keyOf path ++ rest, bytes) ∈ t.files)
    (hend : rest = [] → EndsInName (piecesOf path)) :
    t.follow (startOf path) (piecesOf path) = .ok (.inside (keyOf path)) := by
  have hmem' : ([] ++ names (piecesOf path) ++ rest, bytes) ∈ t.files := hmem
  rw [hplain.relative]
  exact follow_inside hfree hmem' hplain.down hplain.short hend

/-- What is read where a path leads to. -/
theorem read_of_follow {path : String} {place : Place} (hfits : path.utf8ByteSize ≤ maxPathLength)
    (hfollow : t.follow (startOf path) (piecesOf path) = .ok place) :
    t.read path =
      if t.isDirectory place then .error .isDirectory
      else match t.file? place with
        | some bytes => decodeText bytes
        | none => .error .notFound := by
  rw [read, if_neg (Nat.not_lt.2 hfits), hfollow]
  rfl

/-- **A tree gives a file of it** at any plain path whose names lead to it. -/
theorem read_of_mem (hfree : t.PrefixFree) {path : String} (hplain : IsPlain path)
    (hend : EndsInName (piecesOf path)) (hmem : (keyOf path, bytes) ∈ t.files) :
    t.read path = decodeText bytes := by
  have hkey : keyOf path ≠ [] := hend.names_ne_nil (by simp [piecesOf, pieces_ne_nil])
  have hmem' : (keyOf path ++ [], bytes) ∈ t.files := by rwa [List.append_nil]
  have hfollow := hplain.follow hfree hmem' (fun _ => hend)
  rw [read_of_follow hplain.fits hfollow, isDirectory_of_mem hfree hmem hkey,
    file?_of_mem hfree hmem]
  rfl

/-- **A directory cannot be read**: neither the top of a tree that holds a file, nor what a file
stands in. -/
theorem read_above (hfree : t.PrefixFree) {path : String} (hplain : IsPlain path)
    (hmem : (keyOf path ++ rest, bytes) ∈ t.files) (hrest : rest ≠ []) :
    t.read path = .error .isDirectory := by
  have hfollow := hplain.follow hfree hmem (fun h => absurd h hrest)
  rw [read_of_follow hplain.fits hfollow, isDirectory_above hmem hrest]
  rfl

example : (ofList [("story/gate.txt", .empty)]).read "./story" = .error .isDirectory := rfl

/-- **Files are read back at the paths that they were given for.** -/
theorem read_ofList {files : List (String × ByteArray)} {path : String}
    (hfree : (ofList files).PrefixFree) (hplain : IsPlain path)
    (hend : EndsInName (piecesOf path)) (hmem : (path, bytes) ∈ files) :
    (ofList files).read path = decodeText bytes :=
  read_of_mem hfree hplain hend (List.mem_map.2 ⟨_, hmem, rfl⟩)

/-- **A tree gives nothing but what one of its files holds.** -/
theorem exists_file_of_read {path text : String} (h : t.read path = .ok text) :
    ∃ f ∈ t.files, decodeText f.2 = .ok text := by
  by_cases hfits : path.utf8ByteSize ≤ maxPathLength
  case neg =>
    rw [read, if_pos (Nat.not_le.1 hfits)] at h
    cases h
  case pos =>
    cases hfollow : t.follow (startOf path) (piecesOf path) with
    | error fault =>
      rw [read, if_neg (Nat.not_lt.2 hfits), hfollow] at h
      cases h
    | ok place =>
      rw [read_of_follow hfits hfollow] at h
      split at h
      · cases h
      · split at h
        next bytes hfile =>
          cases place with
          | outside => cases hfile
          | inside pieces => exact ⟨(pieces, bytes), mem_of_file? hfile, h⟩
        next => cases h

end FileTree

/-- **A tree stands in for the system**: when it holds every file that the command line names, with
the text that the system gives, a run does the same on either. -/
theorem run_ofList {read : FileReader} {texts : List (String × String)} {words : List String}
    (hfree : (FileTree.ofList (texts.map fun f => (f.1, f.2.toByteArray))).PrefixFree)
    (hplain : ∀ path ∈ namedFiles words,
      FileTree.IsPlain path ∧ FileTree.EndsInName (FileTree.piecesOf path))
    (htexts : ∀ path ∈ namedFiles words, ∃ text, (path, text) ∈ texts ∧ read path = .ok text)
    (level : LogLevel) :
    run (FileTree.ofList (texts.map fun f => (f.1, f.2.toByteArray))).read level words =
      run read level words := by
  refine run_congr (fun path hpath => ?_) level
  obtain ⟨text, hmem, hread⟩ := htexts path hpath
  obtain ⟨hdown, hend⟩ := hplain path hpath
  rw [FileTree.read_ofList hfree hdown hend (List.mem_map.2 ⟨_, hmem, rfl⟩),
    decodeText_toByteArray, hread]

end Gamebook
