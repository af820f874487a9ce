import Gamebook.Text.Pieces

/-!
Gamebook.Text.Lines — the lines of a text, with their numbers.

A line ends at a line feed and nowhere else; a text always has at least one line. Numbers start
at 1.
-/

namespace Gamebook.Text

/-- The lines of the text: what stands between its line feeds. -/
def lines (s : List Char) : List (List Char) := pieces '\n' s

/-- Attach rising numbers to the lines, the first of which is `n`. -/
def numberFrom (n : Nat) : List (List Char) → List (Nat × List Char)
  | [] => []
  | l :: ls => (n, l) :: numberFrom (n + 1) ls

/-- The lines of the text with their numbers, from 1. -/
def numberedLines (s : List Char) : List (Nat × List Char) := numberFrom 1 (lines s)

/-! ## Small lemmas -/

theorem lines_ne_nil (s : List Char) : lines s ≠ [] := pieces_ne_nil '\n' s

/-- No line holds a line feed. -/
theorem newline_notMem_of_mem_lines {s l : List Char} (h : l ∈ lines s) : '\n' ∉ l :=
  sep_notMem_of_mem_pieces h

end Gamebook.Text
