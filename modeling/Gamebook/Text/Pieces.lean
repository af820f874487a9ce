/-!
Gamebook.Text.Pieces — cutting a text at every occurrence of one character.

There is always one piece more than there are separators, so a text has at least one piece; pieces
may be empty. `sep_notMem_of_mem_pieces` says that no piece holds the separator.
-/

namespace Gamebook.Text

/-- What stands between the separators of a text. -/
def pieces (sep : Char) : List Char → List (List Char)
  | [] => [[]]
  | c :: s =>
    if c = sep then [] :: pieces sep s
    else match pieces sep s with
      | [] => [[c]]
      | p :: ps => (c :: p) :: ps

/-! ## Small lemmas -/

theorem pieces_ne_nil (sep : Char) (s : List Char) : pieces sep s ≠ [] := by
  cases s with
  | nil => simp [pieces]
  | cons c s =>
    rw [pieces]
    split
    · simp
    · split <;> simp

/-- No piece holds the separator. -/
theorem sep_notMem_of_mem_pieces {sep : Char} {s p : List Char} (h : p ∈ pieces sep s) :
    sep ∉ p := by
  induction s generalizing p with
  | nil => simp_all [pieces]
  | cons c s ih =>
    rw [pieces] at h
    split at h
    next =>
      rcases List.mem_cons.1 h with rfl | h
      · simp
      · exact ih h
    next hc =>
      split at h
      next hs => exact absurd hs (pieces_ne_nil sep s)
      next q qs hs =>
        rcases List.mem_cons.1 h with rfl | h
        · simp [Ne.symm hc, ih (p := q) (by simp [hs])]
        · exact ih (by simp [hs, h])

end Gamebook.Text
