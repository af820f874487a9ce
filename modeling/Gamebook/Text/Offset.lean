/-!
Gamebook.Text.Offset — places in a line: byte offsets and columns.

Scanners count the bytes of UTF-8, reports count characters from 1. `Span.columns?` is the one
bridge between the two: it answers only for a span that is not empty and that starts and ends
between two characters of the line.

`indexOf?_byteLength` says that an offset behind a prefix has an index, the length of that prefix.
-/

namespace Gamebook.Text

/-- The number of bytes that the text takes in UTF-8. -/
def byteLength : List Char → Nat
  | [] => 0
  | c :: s => c.utf8Size + byteLength s

@[simp] theorem byteLength_nil : byteLength [] = 0 := rfl

@[simp] theorem byteLength_cons (c : Char) (s : List Char) :
    byteLength (c :: s) = c.utf8Size + byteLength s := rfl

@[simp] theorem byteLength_append (s t : List Char) :
    byteLength (s ++ t) = byteLength s + byteLength t := by
  induction s with
  | nil => simp
  | cons c s ih => simp [ih, Nat.add_assoc]

/-- Only the empty text has no bytes. -/
theorem byteLength_eq_zero_iff {s : List Char} : byteLength s = 0 ↔ s = [] := by
  cases s with
  | nil => simp
  | cons c s => have := c.utf8Size_pos; simp; omega

/-- The number of characters in front of a byte offset, if the offset lies between two characters
or at an end of the text. -/
def indexOf? : List Char → Nat → Option Nat
  | _, 0 => some 0
  | [], _ + 1 => none
  | c :: s, n + 1 =>
    if c.utf8Size ≤ n + 1 then (indexOf? s (n + 1 - c.utf8Size)).map (· + 1) else none

@[simp] theorem indexOf?_zero (s : List Char) : indexOf? s 0 = some 0 := by
  cases s <;> rfl

/-- Behind a prefix, the index is the prefix's length. -/
theorem indexOf?_byteLength (s t : List Char) :
    indexOf? (s ++ t) (byteLength s) = some s.length := by
  induction s with
  | nil => simp
  | cons c s ih =>
    have hc := c.utf8Size_pos
    obtain ⟨n, hn⟩ : ∃ n, c.utf8Size + byteLength s = n + 1 :=
      ⟨c.utf8Size + byteLength s - 1, by omega⟩
    have hs : n + 1 - c.utf8Size = byteLength s := by omega
    simp only [List.cons_append, byteLength_cons, hn, indexOf?, hs, ih]
    simp
    omega

/-- The text in front of a byte offset. -/
def textBefore (offset : Nat) (s : List Char) : List Char :=
  s.take ((indexOf? s offset).getD s.length)

/-- The text from a byte offset on. -/
def textFrom (offset : Nat) (s : List Char) : List Char :=
  s.drop ((indexOf? s offset).getD s.length)

/-- A stretch of a line by byte offsets, the end not included. -/
structure Span where
  /-- Where the stretch starts. -/
  start : Nat
  /-- The first offset behind it. -/
  stop : Nat
deriving DecidableEq, Repr

/-- A stretch of a line by columns, counted in characters from 1, the end not included. -/
structure Columns where
  /-- The first column. -/
  start : Nat
  /-- The first column behind the stretch. -/
  stop : Nat
deriving DecidableEq, Repr

/-- The columns of a span of `line`: none for an empty span, or for one that does not start and end
between characters of the line. -/
def Span.columns? (line : List Char) (span : Span) : Option Columns := do
  let i ← indexOf? line span.start
  let j ← indexOf? line span.stop
  if i < j then some ⟨i + 1, j + 1⟩ else none

end Gamebook.Text
