import Gamebook.Json.Number
import Gamebook.Json.Printer
import Gamebook.Proofs.Text.Pieces

/-!
Gamebook.Proofs.Json.Number — whole numbers are read as they are written.

The reader collects digits as long as the number that they make fits in 64 bits
(`takeDigits_append`), and it looks one character further, for a point or an exponent. So a whole
number that fits is read back in front of anything that cannot go on with it
(`read_toDigits`). Written numbers can be cut off a text in one way only, whether they fit or not
(`toDigits_append_inj`).
-/

namespace Gamebook.Json

/-- What a document has behind a value: nothing, a comma, or a new line. -/
def EndsValue (rest : List Char) : Prop := ∀ c ∈ rest.head?, c = ',' ∨ c = '\n'

theorem endsValue_newline : EndsValue ['\n'] :=
  fun _ hc => Or.inr (Option.some.inj hc).symm

theorem EndsValue.isDigit_eq_false {rest : List Char} (h : EndsValue rest) :
    ∀ c ∈ rest.head?, c.isDigit = false := by
  intro c hc
  rcases h c hc with rfl | rfl <;> decide

namespace Number

/-- The whole number fits in 64 bits, so that it stays exact when it is read. -/
def Fits (n : Nat) : Prop := n ≤ maxSignificand

theorem startsDigit_eq_false {rest : List Char} (h : ∀ c ∈ rest.head?, c.isDigit = false) :
    startsDigit rest = false := by
  cases rest with
  | nil => rfl
  | cons c rest => exact h c rfl

/-- Digits only make a number greater. -/
theorem le_ofDigitChars (m : Nat) (ds : List Char) : m ≤ Nat.ofDigitChars 10 ds m := by
  rw [Nat.ofDigitChars_eq_ofDigitChars_zero]
  exact Nat.le_add_right_of_le (Nat.le_mul_of_pos_left m (Nat.pow_pos (by decide)))

/-- **Digits are taken as long as their number fits.** -/
theorem takeDigits_append {rest : List Char} (hrest : startsDigit rest = false) :
    ∀ (ds : List Char) (m : Nat), (∀ c ∈ ds, c.isDigit = true) →
      Nat.ofDigitChars 10 ds m ≤ maxSignificand →
        takeDigits m (ds ++ rest) = (Nat.ofDigitChars 10 ds m, ds.length, rest)
  | [], m, _, _ => by
      cases rest with
      | nil => rfl
      | cons c rest =>
        have hc : c.isDigit = false := hrest
        simp [takeDigits, hc]
  | c :: ds, m, hdigits, hfits => by
      rw [Nat.ofDigitChars_cons, Nat.mul_comm] at hfits
      have hc : c.isDigit = true := hdigits c List.mem_cons_self
      have hstep : m * 10 + digitValue c ≤ maxSignificand :=
        Nat.le_trans (le_ofDigitChars _ ds) hfits
      have ih := takeDigits_append hrest ds (m * 10 + digitValue c)
        (fun d hd => hdigits d (List.mem_cons_of_mem c hd)) hfits
      rw [List.cons_append, takeDigits]
      simp only [hc, hstep, decide_true, Bool.and_self, if_true, ih]
      rw [Nat.ofDigitChars_cons, Nat.mul_comm 10 m]
      rfl

/-- No number but zero is written with a zero in front. -/
theorem exists_toDigits_eq_cons {n : Nat} (hn : n ≠ 0) :
    ∃ c ds, Nat.toDigits 10 n = c :: ds ∧ c ≠ '0' := by
  induction n using Nat.base_induction 10 (by decide) with
  | single m hm =>
    exact ⟨m.digitChar, [], Nat.toDigits_of_lt_base hm, fun h => hn (Nat.digitChar_eq_zero.1 h)⟩
  | digit m k hk hm ih =>
    obtain ⟨c, ds, hds, hc⟩ := ih (Nat.ne_of_gt hm)
    refine ⟨c, ds ++ Nat.toDigits 10 k, ?_, hc⟩
    rw [← Nat.toDigits_append_toDigits (by decide) hm hk, hds, List.cons_append]

theorem isDigit_of_mem_toDigits {n : Nat} : ∀ c ∈ Nat.toDigits 10 n, c.isDigit = true :=
  fun _ hc => Nat.isDigit_of_mem_toDigits (by decide) (by decide) hc

/-- A written number starts with a digit. -/
theorem exists_digit_toDigits (n : Nat) :
    ∃ c ds, Nat.toDigits 10 n = c :: ds ∧ c.isDigit = true := by
  obtain ⟨c, ds, hds⟩ := List.exists_cons_of_ne_nil (@Nat.toDigits_ne_nil n 10)
  refine ⟨c, ds, hds, isDigit_of_mem_toDigits (n := n) c ?_⟩
  rw [hds]
  exact List.mem_cons_self

theorem ne_of_isDigit {c : Char} (hc : c.isDigit = true) (d : Char) (hd : d.isDigit = false) :
    c ≠ d := by
  rintro rfl
  rw [hc] at hd
  exact absurd hd (by decide)

/-- Behind a whole number nothing goes on with it. -/
theorem readTail_of_endsValue {rest : List Char} (h : EndsValue rest) (m : Nat) :
    readTail false m rest = .ok (.int m, rest) := by
  cases rest with
  | nil => rfl
  | cons c rest => rcases h c rfl with rfl | rfl <;> rfl

/-- **A whole number is read as it is written.** -/
theorem read_toDigits {n : Nat} (hn : Fits n) {rest : List Char}
    (hrest : EndsValue rest) :
    read false (Nat.toDigits 10 n ++ rest) = .ok (.int n, rest) := by
  have hstop : startsDigit rest = false := startsDigit_eq_false hrest.isDigit_eq_false
  by_cases hzero : n = 0
  · subst hzero
    have htail := readTail_of_endsValue hrest 0
    simp [read, hstop, htail]
  · obtain ⟨c, ds, hds, hc⟩ := exists_toDigits_eq_cons hzero
    have hdigit : c.isDigit = true := by
      refine isDigit_of_mem_toDigits (n := n) c ?_
      rw [hds]
      exact List.mem_cons_self
    have htake := takeDigits_append hstop (Nat.toDigits 10 n) 0 isDigit_of_mem_toDigits
      (by rwa [Nat.ofDigitChars_ten_toDigits])
    rw [Nat.ofDigitChars_ten_toDigits, hds, List.cons_append] at htake
    rw [hds, List.cons_append, read, if_neg hc, if_pos hdigit, htake]
    simp only [hstop, Bool.false_eq_true, if_false]
    exact readTail_of_endsValue hrest n

/-- A written number can be cut off in one way only. -/
theorem toDigits_append_inj {m n : Nat} {r s : List Char} (hr : EndsValue r) (hs : EndsValue s)
    (h : Nat.toDigits 10 m ++ r = Nat.toDigits 10 n ++ s) : m = n ∧ r = s := by
  obtain ⟨hdigits, hrest⟩ := Text.run_append_inj isDigit_of_mem_toDigits isDigit_of_mem_toDigits
    hr.isDigit_eq_false hs.isDigit_eq_false h
  refine ⟨?_, hrest⟩
  rw [← @Nat.ofDigitChars_ten_toDigits m, hdigits, Nat.ofDigitChars_ten_toDigits]

end Number

end Gamebook.Json
