/-!
Gamebook.Text.Ranges — sets of characters, written as ranges of code points.

The classes of characters that the language rests on are properties of Unicode, and each is a table
of ranges in rising order. Looking a character up walks the table and stops at the first range that
starts behind it.
-/

namespace Gamebook.Text

/-- `inRanges n rs` holds when `n` lies in one of the ranges `rs`, both ends included. The ranges
are in rising order, so the walk ends at the first one that starts behind `n`. -/
def inRanges (n : Nat) : List (Nat × Nat) → Bool
  | [] => false
  | (lo, hi) :: rs => if n < lo then false else n ≤ hi || inRanges n rs

@[simp] theorem inRanges_nil (n : Nat) : inRanges n [] = false := rfl

theorem inRanges_cons (n lo hi : Nat) (rs : List (Nat × Nat)) :
    inRanges n ((lo, hi) :: rs) = if n < lo then false else n ≤ hi || inRanges n rs := rfl

/-- What is found lies in one of the ranges. -/
theorem exists_range_of_inRanges {n : Nat} {rs : List (Nat × Nat)} (h : inRanges n rs = true) :
    ∃ r ∈ rs, r.1 ≤ n ∧ n ≤ r.2 := by
  induction rs with
  | nil => simp at h
  | cons r rs ih =>
    obtain ⟨lo, hi⟩ := r
    rw [inRanges_cons] at h
    split at h
    · simp at h
    · rcases Bool.or_eq_true _ _ ▸ h with h | h
      · exact ⟨(lo, hi), by simp, by grind⟩
      · obtain ⟨r, hr, hn⟩ := ih h
        exact ⟨r, by simp [hr], hn⟩

end Gamebook.Text
