/-!
Gamebook.Text.Affix — taking a known beginning or end off a text.

`dropPrefix?_eq_some_iff` says that the prefix comes off exactly where it stands.
-/

namespace Gamebook.Text

/-- What follows `p` at the start of the text, if the text starts with `p`. -/
def dropPrefix? : (p s : List Char) → Option (List Char)
  | [], s => some s
  | _ :: _, [] => none
  | a :: p, c :: s => if a = c then dropPrefix? p s else none

/-- The text starts with `p`. -/
def startsWith (p s : List Char) : Bool := (dropPrefix? p s).isSome

/-- The text without one `c` at its end, if it ends so. -/
def chop (c : Char) : List Char → List Char
  | [] => []
  | [d] => if d = c then [] else [d]
  | d :: e :: s => d :: chop c (e :: s)

/-! ## Small lemmas -/

@[simp] theorem dropPrefix?_nil (s : List Char) : dropPrefix? [] s = some s := by
  cases s <;> rfl

theorem dropPrefix?_eq_some_iff {p s r : List Char} : dropPrefix? p s = some r ↔ s = p ++ r := by
  induction p generalizing s with
  | nil => simp [eq_comm]
  | cons a p ih =>
    cases s with
    | nil => simp [dropPrefix?]
    | cons c s =>
      by_cases h : a = c
      · simp [dropPrefix?, h, ih]
      · simp [dropPrefix?, h, Ne.symm h]

@[simp] theorem dropPrefix?_append (p r : List Char) : dropPrefix? p (p ++ r) = some r :=
  dropPrefix?_eq_some_iff.2 rfl

theorem startsWith_iff {p s : List Char} : startsWith p s = true ↔ ∃ r, s = p ++ r := by
  rw [startsWith, Option.isSome_iff_exists]
  simp only [dropPrefix?_eq_some_iff]

end Gamebook.Text
