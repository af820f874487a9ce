import Gamebook.Text.Ranges

/-!
Gamebook.Text.Blank — the blank characters, and trimming.

A character is blank when it has Unicode's `White_Space` property. Words end at blanks, lines are
trimmed of them, and a keyword must be followed by one. Control characters from U+001C to U+001F,
the zero-width space and the byte-order mark are not blank.
-/

namespace Gamebook.Text

/-- The code points with the property `White_Space`. -/
def blankRanges : List (Nat × Nat) :=
  [(0x9, 0xD), (0x20, 0x20), (0x85, 0x85), (0xA0, 0xA0), (0x1680, 0x1680), (0x2000, 0x200A),
   (0x2028, 0x2029), (0x202F, 0x202F), (0x205F, 0x205F), (0x3000, 0x3000)]

/-- Blank characters separate words. -/
def isBlank (c : Char) : Bool := inRanges c.toNat blankRanges

/-- The text without its leading blanks. -/
def trimStart (s : List Char) : List Char := s.dropWhile isBlank

/-- The text without its trailing blanks. -/
def trimEnd : List Char → List Char
  | [] => []
  | c :: s => match trimEnd s with
    | [] => if isBlank c then [] else [c]
    | d :: t => c :: d :: t

/-- The text without blanks on either side. -/
def trim (s : List Char) : List Char := trimEnd (trimStart s)

/-- The text starts with a blank, or is empty. -/
def startsBlankOrEmpty : List Char → Bool
  | [] => true
  | c :: _ => isBlank c

/-! ## Small lemmas -/

@[simp] theorem trimEnd_nil : trimEnd [] = [] := rfl

/-- Trimming the end takes a prefix, and drops blanks only. -/
theorem exists_trimEnd_append (s : List Char) :
    ∃ t, s = trimEnd s ++ t ∧ ∀ c ∈ t, isBlank c = true := by
  induction s with
  | nil => exact ⟨[], by simp⟩
  | cons c s ih =>
    obtain ⟨t, hs, ht⟩ := ih
    rw [trimEnd]
    split
    next h =>
      rw [h] at hs
      by_cases hc : isBlank c = true
      · exact ⟨c :: s, by simp [hc], by simp_all⟩
      · exact ⟨s, by simp [hc], by simp_all⟩
    next d u h =>
      exact ⟨t, by rw [h] at hs; simpa using hs, ht⟩

/-- No blank is left at the end. -/
theorem isBlank_getLast_trimEnd (s : List Char) :
    ∀ c ∈ (trimEnd s).getLast?, isBlank c = false := by
  induction s with
  | nil => simp
  | cons c s ih =>
    rw [trimEnd]
    split
    next h => by_cases hc : isBlank c = true <;> simp [hc]
    next d u h => rw [h] at ih; simpa using ih

end Gamebook.Text
