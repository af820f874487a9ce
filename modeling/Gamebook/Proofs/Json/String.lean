import Gamebook.Json.Printer
import Gamebook.Json.Reader

/-!
Gamebook.Proofs.Json.String — strings are read as they are written.

A character is written as itself, as a letter behind a backslash, or, if it is a control character
without such a letter, as four hexadecimal digits. The reader takes each of the three back
(`readStringFrom_escapeChar`), so it finds the end of a written string and all of its characters,
whatever stands behind (`readString_stringText`). A written string can therefore be cut off a text
in one way only (`stringText_append_inj`).
-/

namespace Gamebook.Json

/-! ## One character -/

section Step

variable {c : Char} {cs s rest : List Char}

theorem readStringFrom_of_escape (count : Nat) (hescape : readEscape s = .ok (c, count))
    (hrest : readStringFrom count s = .ok (cs, rest)) :
    readStringFrom 0 ('\\' :: s) = .ok (c :: cs, rest) := by
  simp [readStringFrom, hescape, hrest, bind, Except.bind]

/-- A letter behind a backslash. -/
theorem readStringFrom_letter {e : Char} (hu : e ≠ 'u') (he : simpleEscape? e = some c)
    (hrest : readStringFrom 0 s = .ok (cs, rest)) :
    readStringFrom 0 ('\\' :: e :: s) = .ok (c :: cs, rest) :=
  readStringFrom_of_escape 1 (by simp [readEscape, hu, he]) hrest

/-- The digits of a control character. -/
theorem readHex_control {n : Nat} (hn : n < 0x20) (s : List Char) :
    readHex ('0' :: '0' :: hexDigit (n / 16) :: hexDigit (n % 16) :: s) = .ok n := by
  have key : ∀ n < 0x20, Text.byteLength ['0', '0', hexDigit (n / 16), hexDigit (n % 16)] = 4 ∧
      ['0', '0', hexDigit (n / 16), hexDigit (n % 16)].mapM hexValue? = some [0, 0, n / 16, n % 16] ∧
        16 * (n / 16) + n % 16 = n := by decide
  obtain ⟨hlength, hdigits, hvalue⟩ := key n hn
  simp [readHex, hlength, hdigits, hvalue]

/-- A control character in four digits. -/
theorem readStringFrom_control (hc : c.toNat < 0x20) (hrest : readStringFrom 0 s = .ok (cs, rest)) :
    readStringFrom 0 ('\\' :: 'u' :: '0' :: '0' :: hexDigit (c.toNat / 16) ::
      hexDigit (c.toNat % 16) :: s) = .ok (c :: cs, rest) := by
  have hlow : isLow c.toNat = false := by simp [isLow]; omega
  have hhigh : isHigh c.toNat = false := by simp [isHigh]; omega
  refine readStringFrom_of_escape 5 ?_ hrest
  simp [readEscape, readUnicode, readHex_control hc, hlow, hhigh, bind, Except.bind]

/-- A character that stands for itself. -/
theorem readStringFrom_plain (hquote : c ≠ '"') (hback : c ≠ '\\') (hc : ¬ c.toNat < 0x20)
    (hrest : readStringFrom 0 s = .ok (cs, rest)) :
    readStringFrom 0 (c :: s) = .ok (c :: cs, rest) := by
  simp [readStringFrom, hquote, hback, hc, hrest, bind, Except.bind]

/-- The three ways in which a character is written. -/
theorem escapeChar_cases (c : Char) :
    (∃ e, escapeChar c = ['\\', e] ∧ e ≠ 'u' ∧ simpleEscape? e = some c) ∨
      (c.toNat < 0x20 ∧ escapeChar c =
        ['\\', 'u', '0', '0', hexDigit (c.toNat / 16), hexDigit (c.toNat % 16)]) ∨
      (c ≠ '"' ∧ c ≠ '\\' ∧ ¬ c.toNat < 0x20 ∧ escapeChar c = [c]) := by
  by_cases hletter : c ∈ ['"', '\\', '\x08', '\x0c', '\n', '\r', '\t']
  · simp only [List.mem_cons, List.not_mem_nil, or_false] at hletter
    rcases hletter with rfl | rfl | rfl | rfl | rfl | rfl | rfl <;>
      exact Or.inl ⟨_, rfl, by decide, rfl⟩
  · simp only [List.mem_cons, List.not_mem_nil, or_false, not_or] at hletter
    by_cases hcontrol : c.toNat < 0x20
    · exact Or.inr (Or.inl ⟨hcontrol, by simp [escapeChar, hletter, hcontrol]⟩)
    · exact Or.inr (Or.inr
        ⟨hletter.1, hletter.2.1, hcontrol, by simp [escapeChar, hletter, hcontrol]⟩)

/-- **A character is read as it is written.** -/
theorem readStringFrom_escapeChar (c : Char) (hrest : readStringFrom 0 s = .ok (cs, rest)) :
    readStringFrom 0 (escapeChar c ++ s) = .ok (c :: cs, rest) := by
  rcases escapeChar_cases c with ⟨e, htext, hu, he⟩ | ⟨hc, htext⟩ | ⟨hquote, hback, hc, htext⟩
  · rw [htext]
    exact readStringFrom_letter hu he hrest
  · rw [htext]
    exact readStringFrom_control hc hrest
  · rw [htext]
    exact readStringFrom_plain hquote hback hc hrest

end Step

/-! ## Strings -/

theorem readStringFrom_flatMap_escapeChar (s rest : List Char) :
    readStringFrom 0 (s.flatMap escapeChar ++ '"' :: rest) = .ok (s, rest) := by
  induction s with
  | nil => rfl
  | cons c s ih =>
    rw [List.flatMap_cons, List.append_assoc]
    exact readStringFrom_escapeChar c ih

/-- A written string starts with a quotation mark. -/
theorem stringText_append (s : String) (rest : List Char) :
    stringText s ++ rest = '"' :: (s.toList.flatMap escapeChar ++ '"' :: rest) := by
  simp [stringText]

/-- **A string is read as it is written**, behind its opening quotation mark. -/
theorem readString_stringText (s : String) (rest : List Char) :
    readString (s.toList.flatMap escapeChar ++ '"' :: rest) = .ok (s, rest) := by
  simp [readString, readStringFrom_flatMap_escapeChar, bind, Except.bind]

/-- A written string can be cut off in one way only. -/
theorem stringText_append_inj {s t : String} {r u : List Char}
    (h : stringText s ++ r = stringText t ++ u) : s = t ∧ r = u := by
  rw [stringText_append, stringText_append] at h
  have hread := readString_stringText s r
  rw [(List.cons.inj h).2, readString_stringText, Except.ok.injEq, Prod.mk.injEq] at hread
  exact ⟨hread.1.symm, hread.2.symm⟩

end Gamebook.Json
