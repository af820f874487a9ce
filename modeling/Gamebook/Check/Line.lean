import Gamebook.Check.Cause
import Gamebook.Grammar.Keyword
import Gamebook.Pattern
import Gamebook.Script.Layout
import Gamebook.Text.Lines

/-!
Gamebook.Check.Line — a line of the text as the checks see it, and marks on it.

The checks look at the line itself, so that they can point at columns. A line is code unless it is
blank or a comment. `Line.code` is the part of it in which references count: a text line up to its
marker, any other line up to its comment with quoted text blanked. Both keep the byte offsets of the
line.

A check puts marks on a line: a span of bytes and a cause. A mark becomes a finding when its span
has columns.
-/

namespace Gamebook

open Text

/-- A line of the text. -/
structure Line where
  /-- The number of the line. -/
  number : Nat
  /-- The line, without a carriage return at its end. -/
  raw : List Char
deriving DecidableEq, Repr

namespace Line

/-- The line with this number and content. -/
def ofRaw (number : Nat) (raw : List Char) : Line := ⟨number, chop '\r' raw⟩

/-- The lines of a text. -/
def ofText (text : List Char) : List Line :=
  (numberedLines text).map fun (number, raw) => ofRaw number raw

/-- The line without blanks on either side. -/
def trimmed (line : Line) : List Char := trim line.raw

/-- The number of bytes in front of the trimmed line. -/
def indent (line : Line) : Nat := byteLength (line.raw.takeWhile isBlank)

/-- The keyword that the line opens with. -/
def keyword? (line : Line) : Option Keyword := Keyword.leading? line.trimmed

/-- The line is neither blank nor a comment. -/
def isCode (line : Line) : Bool :=
  line.trimmed != [] && !startsWith ['/', '/'] line.trimmed

/-- The place of the keyword `k`, if the line opens with it. -/
def keywordSpan (line : Line) (k : Keyword) : Span :=
  ⟨line.indent, line.indent + byteLength k.letters⟩

/-- The words behind the keyword `k` that the line opens with, without the comment. -/
def arguments (line : Line) (k : Keyword) : List Segment :=
  (segments (stripComment (line.trimmed.drop k.letters.length))).map
    (Segment.shift (line.indent + byteLength k.letters))

/-- The line is a text line. -/
def isText (line : Line) : Bool := (layout? line.raw).isSome

/-- The part of the line that may hold references. -/
def code (line : Line) : List Char :=
  match layout? line.raw with
  | some l => textBefore (l.marker + 1) line.raw
  | none => blankQuoted (stripComment line.raw)

/-- The matches of a pattern in the part of the line that may hold references. -/
def hits (line : Line) (p : Pattern) : List Hit := p.scan line.code

end Line

/-- A cause at a place of a line. -/
structure Mark where
  /-- The line. -/
  line : Line
  /-- The place, in bytes. -/
  span : Span
  /-- What is wrong there. -/
  cause : Cause
deriving DecidableEq, Repr

/-- A mark on a segment. -/
def Line.markSegment (line : Line) (s : Segment) (cause : Cause) : Mark := ⟨line, s.span, cause⟩

/-- A mark on the keyword of the line. -/
def Line.markKeyword (line : Line) (k : Keyword) (cause : Cause) : Mark :=
  ⟨line, line.keywordSpan k, cause⟩

/-- A cause at a place of the text. -/
structure Finding where
  /-- The number of the line. -/
  line : Nat
  /-- The place on the line. -/
  columns : Columns
  /-- What is wrong there. -/
  cause : Cause
deriving DecidableEq, Repr

/-- The finding that a mark stands for. -/
def Mark.finding? (mark : Mark) : Option Finding :=
  (mark.span.columns? mark.line.raw).map fun columns => ⟨mark.line.number, columns, mark.cause⟩

/-- How a report shows the finding. -/
def Finding.diagnostic (f : Finding) : Diagnostic :=
  ⟨f.line, f.columns.start, f.columns.stop, f.cause.message, f.cause.severity⟩

end Gamebook
