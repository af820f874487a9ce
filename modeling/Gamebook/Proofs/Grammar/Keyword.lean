import Gamebook.Grammar.Keyword
import Gamebook.Grammar.Marker
import Gamebook.Proofs.Text.Trim

/-!
Gamebook.Proofs.Grammar.Keyword — a line opens with at most one keyword.

The fixed words of the language stand in tables, and a word is looked up among those that are
written so. No two entries of a table are written alike, so the order of a table does not matter
(`find?_written_iff`).

Keywords are written in capital letters, so no blank, sigil or quotation mark stands in one. A
keyword in front of a blank can therefore not be the beginning of another one, and the order in
which a line is tried against them does not matter (`leading?_eq_some_iff`).
-/

namespace Gamebook

open Text

/-! ## Tables of fixed words -/

/-- What is looked up by its letters is the one entry that is written so. -/
theorem find?_written_iff {α : Type} {all : List α} {letters : α → List Char}
    (hall : ∀ a, a ∈ all) (hinj : ∀ a ∈ all, ∀ b ∈ all, letters a = letters b → a = b)
    {word : List Char} {a : α} :
    (all.find? fun b => letters b = word) = some a ↔ word = letters a := by
  constructor
  · intro h
    have hword := List.find?_some h
    exact (of_decide_eq_true hword).symm
  · rintro rfl
    cases h : all.find? fun b => letters b = letters a with
    | none => exact absurd (decide_eq_true rfl) (List.find?_eq_none.1 h a (hall a))
    | some b =>
      have hb := List.find?_some h
      rw [hinj b (hall b) a (hall a) (of_decide_eq_true hb)]

theorem Special.ofWord?_eq_some_iff {word : List Char} {m : Special} :
    Special.ofWord? word = some m ↔ word = m.letters :=
  find?_written_iff (fun m => by cases m <;> decide) (by decide)

theorem MetaTarget.ofName?_eq_some_iff {name : List Char} {t : MetaTarget} :
    MetaTarget.ofName? name = some t ↔ name = t.letters :=
  find?_written_iff (fun t => by cases t <;> decide) (by decide)

theorem TimeLimit.ofName?_eq_some_iff {name : List Char} {t : TimeLimit} :
    TimeLimit.ofName? name = some t ↔ name = t.letters :=
  find?_written_iff (fun t => by cases t <;> decide) (by decide)

namespace Keyword

theorem isUpper_of_mem_letters (k : Keyword) : ∀ c ∈ k.letters, c.isUpper = true := by
  cases k <;> decide

theorem letters_ne_nil (k : Keyword) : k.letters ≠ [] := by cases k <;> decide

theorem letters_injective {j k : Keyword} (h : j.letters = k.letters) : j = k := by
  have key : ∀ j ∈ all, ∀ k ∈ all, j.letters = k.letters → j = k := by decide
  exact key j (mem_all j) k (mem_all k) h

/-- No blank stands in a keyword. -/
theorem isBlank_of_mem_letters (k : Keyword) : ∀ c ∈ k.letters, isBlank c = false :=
  fun c hc => isBlank_of_isWordChar (isWordChar_of_isUpper (isUpper_of_mem_letters k c hc))

theorem notMem_letters (k : Keyword) {c : Char} (h : c.isUpper = false) : c ∉ k.letters := by
  intro hc
  rw [isUpper_of_mem_letters k c hc] at h
  exact absurd h (by decide)

theorem quote_notMem_letters (k : Keyword) : '"' ∉ k.letters := notMem_letters k (by decide)

theorem slash_notMem_letters (k : Keyword) : '/' ∉ k.letters := notMem_letters k (by decide)

/-! ## Words -/

theorem ofWord?_eq_some_iff {w : List Char} {k : Keyword} : ofWord? w = some k ↔ w = k.letters :=
  find?_written_iff mem_all fun _ _ _ _ => letters_injective

/-! ## Lines -/

theorem opens_iff {k : Keyword} {line : List Char} :
    k.opens line = true ↔ ∃ r, line = k.letters ++ r ∧ StopsWord r := by
  rw [opens]
  cases h : dropPrefix? k.letters line with
  | none =>
    constructor
    · intro hf; exact absurd hf (by decide)
    · rintro ⟨r, rfl, -⟩
      rw [dropPrefix?_append] at h
      exact absurd h (by simp)
  | some r =>
    have hline : line = k.letters ++ r := dropPrefix?_eq_some_iff.1 h
    constructor
    · intro hr
      exact ⟨r, hline, stopsWord_iff.2 hr⟩
    · rintro ⟨r', hline', hr'⟩
      rw [hline, List.append_cancel_left_eq] at hline'
      rw [hline']
      exact stopsWord_iff.1 hr'

/-- A word in front of a blank is not the beginning of a longer word without blanks. -/
theorem eq_of_append_eq_append {a b r s : List Char} (hb : ∀ c ∈ b, isBlank c = false)
    (hr : StopsWord r) (hle : a.length ≤ b.length) (h : a ++ r = b ++ s) : a = b := by
  obtain ⟨x, rfl⟩ : a <+: b := List.prefix_of_prefix_length_le ⟨r, h⟩ ⟨s, rfl⟩ hle
  rw [List.append_assoc, List.append_cancel_left_eq] at h
  cases x with
  | nil => rw [List.append_nil]
  | cons c x =>
    have hblank : isBlank c = true := hr c (by rw [h]; rfl)
    rw [hb c (by simp)] at hblank
    exact absurd hblank (by decide)

/-- **A line opens with at most one keyword.** -/
theorem opens_unique {j k : Keyword} {line : List Char} (hj : j.opens line = true)
    (hk : k.opens line = true) : j = k := by
  obtain ⟨r, rfl, hr⟩ := opens_iff.1 hj
  obtain ⟨s, h, hs⟩ := opens_iff.1 hk
  refine letters_injective ?_
  rcases Nat.le_total j.letters.length k.letters.length with hle | hle
  · exact eq_of_append_eq_append (isBlank_of_mem_letters k) hr hle h
  · exact (eq_of_append_eq_append (isBlank_of_mem_letters j) hs hle h.symm).symm

theorem leading?_eq_some_iff {k : Keyword} {line : List Char} :
    leading? line = some k ↔ k.opens line = true := by
  constructor
  · intro h
    exact List.find?_some (p := fun k => opens k line) h
  · intro hk
    cases h : leading? line with
    | none =>
      have := List.find?_eq_none.1 h k (mem_all k)
      exact absurd hk this
    | some j =>
      have hj : j.opens line = true := List.find?_some (p := fun k => opens k line) h
      rw [opens_unique hj hk]

/-- No line opens with a keyword unless its first character is a capital letter. -/
theorem leading?_eq_none_of_head {c : Char} (h : c.isUpper = false) (s : List Char) :
    leading? (c :: s) = none := by
  cases hk : leading? (c :: s) with
  | none => rfl
  | some k =>
    obtain ⟨r, hr, -⟩ := opens_iff.1 (leading?_eq_some_iff.1 hk)
    cases hl : k.letters with
    | nil => exact absurd hl (letters_ne_nil k)
    | cons d l =>
      rw [hl, List.cons_append, List.cons.injEq] at hr
      have hd : d.isUpper = true := isUpper_of_mem_letters k d (by rw [hl]; simp)
      rw [← hr.1, h] at hd
      exact absurd hd (by decide)

end Keyword

end Gamebook
