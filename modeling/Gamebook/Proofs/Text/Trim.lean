import Gamebook.Text.Affix
import Gamebook.Text.Blank
import Gamebook.Text.WordChar
import Mathlib.Data.List.Induction
import Mathlib.Data.List.TakeWhile

/-!
Gamebook.Proofs.Text.Trim — what trimming keeps and what it drops.

There are few blank characters, so a fact about each of them is a fact about a short list of code
points (`forall_of_isBlank`). Everything else in this module is about the two ends of a text: a text
is its blank lead, its trimmed middle and its blank end (`exists_trim`), and blanks at either side
make no difference to the middle.
-/

namespace Gamebook.Text

/-! ## Characters one by one -/

-- Without these instances, such facts may be decided by running through all characters there are.

/-- A fact about the characters of a list is decided along the list. -/
instance decidableForallMemList (p : Char → Prop) [DecidablePred p] (l : List Char) :
    Decidable (∀ c ∈ l, p c) := List.decidableBAll p l

/-- A fact about a character that may be missing is decided for this character only. -/
instance decidableForallMemOption (p : Char → Prop) [DecidablePred p] (o : Option Char) :
    Decidable (∀ c ∈ o, p c) := Option.decidableForallMem o

/-! ## Blank characters -/

/-- The code points of the blank characters, one by one. -/
def blankCodes : List Nat := blankRanges.flatMap fun r => List.range' r.1 (r.2 + 1 - r.1)

theorem toNat_mem_blankCodes {c : Char} (h : isBlank c = true) : c.toNat ∈ blankCodes := by
  obtain ⟨r, hr, hlo, hhi⟩ := exists_range_of_inRanges h
  refine List.mem_flatMap.2 ⟨r, hr, List.mem_range'.2 ⟨c.toNat - r.1, by omega, by omega⟩⟩

/-- What holds of the listed code points holds of every blank. -/
theorem forall_of_isBlank {P : Char → Prop} (h : ∀ n ∈ blankCodes, P (Char.ofNat n)) {c : Char}
    (hc : isBlank c = true) : P c := by
  have := h c.toNat (toNat_mem_blankCodes hc)
  rwa [Char.ofNat_toNat] at this

/-- No blank belongs to a word. -/
theorem isWordChar_of_isBlank {c : Char} (h : isBlank c = true) : isWordChar c = false :=
  forall_of_isBlank (P := fun c => isWordChar c = false) (by decide +kernel) h

theorem isBlank_of_isWordChar {c : Char} (h : isWordChar c = true) : isBlank c = false := by
  cases hc : isBlank c with
  | false => rfl
  | true => rw [isWordChar_of_isBlank hc] at h; exact absurd h (by decide)

theorem isUpper_iff {c : Char} : c.isUpper = true ↔ 65 ≤ c.toNat ∧ c.toNat ≤ 90 := by
  show decide (65 ≤ c.val ∧ c.val ≤ 90) = true ↔ _
  rw [decide_eq_true_eq]
  rfl

theorem isLower_iff {c : Char} : c.isLower = true ↔ 97 ≤ c.toNat ∧ c.toNat ≤ 122 := by
  show (decide (97 ≤ c.val) && decide (c.val ≤ 122)) = true ↔ _
  rw [Bool.and_eq_true, decide_eq_true_eq, decide_eq_true_eq]
  rfl

theorem isDigit_iff {c : Char} : c.isDigit = true ↔ 48 ≤ c.toNat ∧ c.toNat ≤ 57 := by
  show (decide (48 ≤ c.val) && decide (c.val ≤ 57)) = true ↔ _
  rw [Bool.and_eq_true, decide_eq_true_eq, decide_eq_true_eq]
  rfl

/-- Letters and digits of ASCII are word characters. -/
theorem isWordChar_of_isAlphanum {c : Char} (h : c.isAlphanum = true) : isWordChar c = true := by
  have hlt : c.toNat < 0x80 := by
    change (c.isUpper || c.isLower || c.isDigit) = true at h
    rw [Bool.or_eq_true, Bool.or_eq_true, isUpper_iff, isLower_iff, isDigit_iff] at h
    omega
  rw [isWordChar, if_pos hlt, h, Bool.true_or]

theorem isWordChar_of_isUpper {c : Char} (h : c.isUpper = true) : isWordChar c = true := by
  refine isWordChar_of_isAlphanum ?_
  show (c.isUpper || c.isLower || c.isDigit) = true
  rw [h, Bool.true_or, Bool.true_or]

theorem isWordChar_of_isLower {c : Char} (h : c.isLower = true) : isWordChar c = true := by
  refine isWordChar_of_isAlphanum ?_
  show (c.isUpper || c.isLower || c.isDigit) = true
  rw [h, Bool.or_true, Bool.true_or]

/-- A small letter is no capital letter. -/
theorem isUpper_of_isLower {c : Char} (h : c.isLower = true) : c.isUpper = false := by
  cases hupper : c.isUpper with
  | false => rfl
  | true =>
    have hlo := isLower_iff.1 h
    have hhi := isUpper_iff.1 hupper
    omega

/-- The marks of the language: no blank is one of them. -/
theorem ne_mark_of_isBlank {c : Char} (h : isBlank c = true) :
    c ≠ '"' ∧ c ≠ '/' ∧ c ≠ '@' ∧ c ≠ '$' ∧ c ≠ '#' ∧ c ≠ ':' ∧ c ≠ ',' ∧ c ≠ '>' ∧ c ≠ '-' :=
  forall_of_isBlank (P := fun c => c ≠ '"' ∧ c ≠ '/' ∧ c ≠ '@' ∧ c ≠ '$' ∧ c ≠ '#' ∧ c ≠ ':' ∧
    c ≠ ',' ∧ c ≠ '>' ∧ c ≠ '-') (by decide +kernel) h

theorem ne_quote_of_isBlank {c : Char} (h : isBlank c = true) : c ≠ '"' := (ne_mark_of_isBlank h).1

theorem ne_slash_of_isBlank {c : Char} (h : isBlank c = true) : c ≠ '/' :=
  (ne_mark_of_isBlank h).2.1

/-- A text of blanks only. -/
def AllBlank (s : List Char) : Prop := ∀ c ∈ s, isBlank c = true

/-- The text is empty or starts with a blank: a word in front of it ends there. -/
def StopsWord (s : List Char) : Prop := ∀ c ∈ s.head?, isBlank c = true

theorem AllBlank.stopsWord {s : List Char} (h : AllBlank s) : StopsWord s :=
  fun c hc => h c (List.mem_of_mem_head? hc)

theorem stopsWord_iff {s : List Char} : StopsWord s ↔ startsBlankOrEmpty s = true := by
  cases s <;> simp [StopsWord, startsBlankOrEmpty]

theorem StopsWord.append {s t : List Char} (hs : StopsWord s) (ht : StopsWord t) :
    StopsWord (s ++ t) := by
  cases s with
  | nil => exact ht
  | cons c s => exact hs

theorem AllBlank.quote_notMem {s : List Char} (h : AllBlank s) : '"' ∉ s :=
  fun hm => ne_quote_of_isBlank (h _ hm) rfl

theorem AllBlank.slash_notMem {s : List Char} (h : AllBlank s) : '/' ∉ s :=
  fun hm => ne_slash_of_isBlank (h _ hm) rfl

theorem allBlank_takeWhile (s : List Char) : AllBlank (s.takeWhile isBlank) :=
  fun _ hc => List.mem_takeWhile_imp hc

/-! ## Trimming the end -/

theorem trimEnd_of_allBlank {s : List Char} (h : AllBlank s) : trimEnd s = [] := by
  induction s with
  | nil => rfl
  | cons c s ih =>
    have hc : isBlank c = true := h c (by simp)
    rw [trimEnd, ih fun d hd => h d (by simp [hd])]
    simp [hc]

/-- Blanks at the end are dropped. -/
theorem trimEnd_append_of_allBlank (s : List Char) {t : List Char} (h : AllBlank t) :
    trimEnd (s ++ t) = trimEnd s := by
  induction s with
  | nil => simpa using trimEnd_of_allBlank h
  | cons c s ih => rw [List.cons_append, trimEnd, trimEnd, ih]

/-- What stands in front of a character that stays, stays. -/
theorem trimEnd_append_of_ne_nil (s : List Char) {t : List Char} (h : trimEnd t ≠ []) :
    trimEnd (s ++ t) = s ++ trimEnd t := by
  induction s with
  | nil => rfl
  | cons c s ih =>
    rw [List.cons_append, trimEnd, ih]
    cases hs : s ++ trimEnd t with
    | nil => exact absurd (List.append_eq_nil_iff.1 hs).2 h
    | cons d u => rw [List.cons_append, hs]

/-- A text that does not end with a blank is left as it is. -/
theorem trimEnd_of_getLast {s : List Char} (h : ∀ c ∈ s.getLast?, isBlank c = false) :
    trimEnd s = s := by
  obtain ⟨t, hs, ht⟩ := exists_trimEnd_append s
  cases t using List.reverseRecOn with
  | nil => simpa using hs.symm
  | append_singleton t c =>
    rw [← List.append_assoc] at hs
    have hlast : isBlank c = false := h c (by rw [hs, List.getLast?_concat]; rfl)
    exact absurd (ht c (by simp)) (by simp [hlast])

/-- A character that is not blank ends the trimmed text where it stands. -/
theorem trimEnd_concat (s : List Char) {c : Char} (h : isBlank c = false) :
    trimEnd (s ++ [c]) = s ++ [c] :=
  trimEnd_of_getLast (by simp [h])

/-- Trimming the end keeps the first character, if that is not blank. -/
theorem trimEnd_cons {c : Char} (h : isBlank c = false) (s : List Char) :
    trimEnd (c :: s) = c :: trimEnd s := by
  rw [trimEnd]
  split
  next hs => simp [h, hs]
  next d u hs => rw [hs]

/-! ## Trimming both sides -/

theorem trimStart_append_of_allBlank {t : List Char} (h : AllBlank t) (s : List Char) :
    trimStart (t ++ s) = trimStart s := List.dropWhile_append_of_pos h

theorem trimStart_of_allBlank {t : List Char} (h : AllBlank t) : trimStart t = [] :=
  List.dropWhile_eq_nil_iff.2 h

/-- A text that does not start with a blank is left as it is. -/
theorem trimStart_of_head {s : List Char} (h : ∀ c ∈ s.head?, isBlank c = false) :
    trimStart s = s := by
  cases s with
  | nil => rfl
  | cons c s => rw [trimStart, List.dropWhile_cons_of_neg (by simpa using h c rfl)]

theorem isBlank_head_trimStart (s : List Char) : ∀ c ∈ (trimStart s).head?, isBlank c = false := by
  intro c hc
  have := List.head?_dropWhile_not isBlank s
  rw [← trimStart, Option.mem_def.1 hc] at this
  simpa using this

theorem isBlank_head_trim (s : List Char) : ∀ c ∈ (trim s).head?, isBlank c = false := by
  intro c hc
  obtain ⟨t, hs, -⟩ := exists_trimEnd_append (trimStart s)
  refine isBlank_head_trimStart s c ?_
  rw [hs, List.head?_append, ← trim, Option.mem_def.1 hc]
  rfl

theorem isBlank_getLast_trim (s : List Char) : ∀ c ∈ (trim s).getLast?, isBlank c = false :=
  isBlank_getLast_trimEnd _

/-- A text is a blank lead, its trimmed middle and a blank end. -/
theorem exists_trim (s : List Char) :
    ∃ t, s = s.takeWhile isBlank ++ trim s ++ t ∧ AllBlank t := by
  obtain ⟨t, hs, ht⟩ := exists_trimEnd_append (trimStart s)
  refine ⟨t, ?_, ht⟩
  calc s = s.takeWhile isBlank ++ trimStart s := List.takeWhile_append_dropWhile.symm
    _ = s.takeWhile isBlank ++ (trim s ++ t) := by rw [trim, ← hs]
    _ = _ := (List.append_assoc _ _ _).symm

/-- A text with a blank at neither end is trimmed already. -/
theorem trim_of_ends {s : List Char} (hhead : ∀ c ∈ s.head?, isBlank c = false)
    (hlast : ∀ c ∈ s.getLast?, isBlank c = false) : trim s = s := by
  rw [trim, trimStart_of_head hhead, trimEnd_of_getLast hlast]

theorem trim_append_of_allBlank (s : List Char) {t : List Char} (h : AllBlank t) :
    trim (s ++ t) = trim s := by
  rw [trim, trim, trimStart, List.dropWhile_append]
  split
  next hs =>
    have hnil : trimStart s = [] := List.isEmpty_iff.1 hs
    rw [← trimStart, trimStart_of_allBlank h, hnil]
  next => exact trimEnd_append_of_allBlank _ h

theorem trimStart_append_cons {c : Char} (hc : isBlank c = false) (u x : List Char) :
    trimStart (u ++ c :: x) = trimStart u ++ c :: x := by
  induction u with
  | nil => exact trimStart_of_head (by simp [hc])
  | cons d u ih =>
    rw [List.cons_append, trimStart, trimStart, List.dropWhile_cons, List.dropWhile_cons]
    split
    · exact ih
    · rfl

theorem trimEnd_append_cons {c : Char} (hc : isBlank c = false) (u x : List Char) :
    trimEnd (u ++ c :: x) = u ++ c :: trimEnd x := by
  have hcons := trimEnd_cons hc x
  rw [trimEnd_append_of_ne_nil u (by rw [hcons]; simp), hcons]

theorem trim_append_cons {c : Char} (hc : isBlank c = false) (u x : List Char) :
    trim (u ++ c :: x) = trimStart u ++ c :: trimEnd x := by
  rw [trim, trimStart_append_cons hc, trimEnd_append_cons hc]

/-- A text is itself without a `c` at its end, and that `c` if it was there. -/
theorem exists_chop_append (c : Char) (s : List Char) :
    s = chop c s ∨ s = chop c s ++ [c] := by
  induction s with
  | nil => exact Or.inl rfl
  | cons d s ih =>
    cases s with
    | nil => by_cases h : d = c <;> simp [chop, h]
    | cons e s =>
      rw [chop]
      rcases ih with h | h
      · exact Or.inl (congrArg (d :: ·) h)
      · exact Or.inr (congrArg (d :: ·) h)

theorem notMem_chop {d : Char} (c : Char) {s : List Char} (h : d ∉ s) : d ∉ chop c s := by
  intro hm
  refine h ?_
  rcases exists_chop_append c s with hs | hs
  · rw [hs]
    exact hm
  · rw [hs]
    exact List.mem_append_left _ hm

/-- A `c` at the end is taken off. -/
theorem chop_concat (c : Char) : ∀ s : List Char, chop c (s ++ [c]) = s
  | [] => if_pos rfl
  | [d] => by
      show d :: chop c [c] = [d]
      rw [chop, if_pos rfl]
  | d :: e :: s => by
      show d :: chop c (e :: s ++ [c]) = _
      rw [chop_concat c (e :: s)]

/-- Taking off the end leaves what stands in front of another character. -/
theorem chop_append_cons {c d : Char} (h : d ≠ c) (x : List Char) : ∀ s : List Char,
    chop c (s ++ d :: x) = s ++ d :: chop c x
  | [] => by
      cases x with
      | nil => exact if_neg h
      | cons e x => rfl
  | [a] => by
      show a :: chop c (d :: x) = _
      rw [← List.nil_append (d :: x), chop_append_cons h x []]
      rfl
  | a :: b :: s => by
      show a :: chop c (b :: s ++ d :: x) = _
      rw [chop_append_cons h x (b :: s)]
      rfl

/-- A carriage return at the end of a line is blank, so it does not count. -/
theorem trim_chop (s : List Char) : trim (chop '\r' s) = trim s := by
  rcases exists_chop_append '\r' s with h | h
  · rw [← h]
  · have hcr : AllBlank ['\r'] := by simp [AllBlank]; decide
    calc trim (chop '\r' s) = trim (chop '\r' s ++ ['\r']) := (trim_append_of_allBlank _ hcr).symm
      _ = trim s := by rw [← h]

end Gamebook.Text
