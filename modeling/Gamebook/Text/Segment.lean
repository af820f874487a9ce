import Gamebook.Text.Blank
import Gamebook.Text.Offset

/-!
Gamebook.Text.Segment — words, comments and quoted text of a line.

All three follow one toggle: a quotation mark opens or closes quoted text, wherever it stands.

* `segments` cuts a line at its unquoted blanks; each segment carries its byte offset.
* `stripComment` drops everything from the first unquoted `//`.
* `blankQuoted` writes a space for every byte of quoted text and keeps all else, so that the offsets
  of what is left stay the offsets of the line.
-/

namespace Gamebook.Text

/-- A piece of a line with the byte offset at which it starts. -/
structure Segment where
  /-- The byte offset of the first character. -/
  start : Nat
  /-- The characters. -/
  text : List Char
deriving DecidableEq, Repr

/-- The first offset behind the segment. -/
def Segment.stop (s : Segment) : Nat := s.start + byteLength s.text

/-- The place of the segment. -/
def Segment.span (s : Segment) : Span := ⟨s.start, s.stop⟩

/-- The segment, seen from `n` bytes further left. -/
def Segment.shift (n : Nat) (s : Segment) : Segment := ⟨n + s.start, s.text⟩

/-- Whether quoted text is open behind `c`, where `quoted` says whether it is open before. -/
def quotedAfter (quoted : Bool) (c : Char) : Bool := if c = '"' then !quoted else quoted

/-- Put the word that starts at `pos` in front of the segments behind it; an empty word is none. -/
def Segment.cons (pos : Nat) (word : List Char) (rest : List Segment) : List Segment :=
  if word = [] then rest else ⟨pos, word⟩ :: rest

/-- The rest of the word that `s` starts in, and the segments behind that word. The text stands at
byte `pos`, and `quoted` says whether quoted text is open there. -/
def segmentsFrom (quoted : Bool) (pos : Nat) : List Char → List Char × List Segment
  | [] => ([], [])
  | c :: s =>
    let behind := segmentsFrom (quotedAfter quoted c) (pos + c.utf8Size) s
    if isBlank c && !quoted then
      ([], Segment.cons (pos + c.utf8Size) behind.1 behind.2)
    else (c :: behind.1, behind.2)

/-- The segments of the text: its longest stretches without an unquoted blank. -/
def segments (s : List Char) : List Segment :=
  let found := segmentsFrom false 0 s
  Segment.cons 0 found.1 found.2

/-- `stripComment` where quoted text may be open already. -/
def stripCommentFrom (quoted : Bool) : List Char → List Char
  | [] => []
  | c :: s =>
    if !quoted && c == '/' && s.head? == some '/' then []
    else c :: stripCommentFrom (quotedAfter quoted c) s

/-- The text up to its first unquoted `//`. -/
def stripComment (s : List Char) : List Char := stripCommentFrom false s

/-- `blankQuoted` where quoted text may be open already. -/
def blankQuotedFrom (quoted : Bool) : List Char → List Char
  | [] => []
  | c :: s =>
    (if quoted && c != '"' then List.replicate c.utf8Size ' ' else [c]) ++
      blankQuotedFrom (quotedAfter quoted c) s

/-- The text with a space for each byte between quotation marks. A quotation mark that is never
closed blanks the rest of the text. -/
def blankQuoted (s : List Char) : List Char := blankQuotedFrom false s

/-! ## Small lemmas -/

/-- Stripping a comment takes a prefix. -/
theorem stripCommentFrom_prefix (quoted : Bool) (s : List Char) :
    stripCommentFrom quoted s <+: s := by
  induction s generalizing quoted with
  | nil => simp [stripCommentFrom]
  | cons c s ih =>
    rw [stripCommentFrom]
    split
    · simp
    · exact List.cons_prefix_cons.2 ⟨rfl, ih _⟩

theorem byteLength_replicate_space (n : Nat) : byteLength (List.replicate n ' ') = n := by
  induction n with
  | zero => rfl
  | succ n ih => rw [List.replicate_succ, byteLength_cons, ih]; simp [Char.utf8Size]; omega

/-- Blanking keeps the number of bytes. -/
theorem byteLength_blankQuotedFrom (quoted : Bool) (s : List Char) :
    byteLength (blankQuotedFrom quoted s) = byteLength s := by
  induction s generalizing quoted with
  | nil => rfl
  | cons c s ih =>
    rw [blankQuotedFrom, byteLength_append, ih, byteLength_cons]
    split
    · rw [byteLength_replicate_space]
    · simp

end Gamebook.Text
