import Gamebook.Proofs.Text.Pieces
import Gamebook.Proofs.Text.Quotation

/-!
Gamebook.Proofs.Text.Bytes — blanking, byte by byte.

Where quoted text is blanked, a character of several bytes becomes as many spaces. So the blanked
text has other characters than the text, but its bytes stand where they stood. A byte is *blanked*
if it is no quotation mark and the number of quotation marks in front of it is odd (`IsBlanked`).

* `exists_char_at`: each byte belongs to a character. So whether a byte is blanked is a question of
  that character and of the state in front of it (`isBlanked_iff`).
* `getElem?_utf8_blankQuoted`: blanking writes a space for each blanked byte.
* `exists_append_of_not_isBlanked`: what holds no blanked byte stands in the text as well, at the
  same place.
-/

namespace Gamebook.Text

/-! ## Bytes -/

/-- The bytes of the text. -/
def utf8 (s : List Char) : List UInt8 := s.flatMap String.utf8EncodeChar

/-- The byte of a quotation mark. -/
def quoteByte : UInt8 := 0x22

/-- The byte of a space. -/
def spaceByte : UInt8 := 0x20

@[simp] theorem utf8_nil : utf8 [] = [] := rfl

@[simp] theorem utf8_cons (c : Char) (s : List Char) :
    utf8 (c :: s) = String.utf8EncodeChar c ++ utf8 s := rfl

@[simp] theorem utf8_append (s t : List Char) : utf8 (s ++ t) = utf8 s ++ utf8 t :=
  List.flatMap_append

@[simp] theorem length_utf8 (s : List Char) : (utf8 s).length = byteLength s := by
  induction s with
  | nil => rfl
  | cons c s ih => rw [utf8_cons, List.length_append, String.length_utf8EncodeChar, ih]; rfl

theorem utf8_replicate_space (n : Nat) :
    utf8 (List.replicate n ' ') = List.replicate n spaceByte := by
  induction n with
  | zero => rfl
  | succ n ih => rw [List.replicate_succ, utf8_cons, ih]; rfl

/-- Only characters of ASCII have bytes of ASCII. -/
theorem toNat_eq_of_mem_utf8EncodeChar {c : Char} {b : UInt8} (h : b ∈ String.utf8EncodeChar c)
    (hb : b.toNat < 0x80) : b.toNat = c.toNat := by
  have hbyte : ∀ n, b = UInt8.ofNat n → b.toNat = n % 0x100 := by
    rintro n rfl
    exact UInt8.toNat_ofNat'
  have hval : c.val.toNat = c.toNat := rfl
  unfold String.utf8EncodeChar at h
  simp only at h
  split at h
  next =>
    rw [hbyte _ (List.mem_singleton.1 h)]
    omega
  next =>
    split at h
    next =>
      simp only [List.mem_cons, List.not_mem_nil, or_false] at h
      rcases h with h | h <;> have := hbyte _ h <;> omega
    next =>
      split at h
      next =>
        simp only [List.mem_cons, List.not_mem_nil, or_false] at h
        rcases h with h | h | h <;> have := hbyte _ h <;> omega
      next =>
        simp only [List.mem_cons, List.not_mem_nil, or_false] at h
        rcases h with h | h | h | h <;> have := hbyte _ h <;> omega

theorem quoteByte_notMem_utf8EncodeChar {c : Char} (h : c ≠ '"') :
    quoteByte ∉ String.utf8EncodeChar c := fun hm =>
  h (Char.toNat_inj.1 (toNat_eq_of_mem_utf8EncodeChar hm (by decide)).symm)

theorem space_mem_of_spaceByte_mem_utf8 {s : List Char} (h : spaceByte ∈ utf8 s) : ' ' ∈ s := by
  obtain ⟨c, hc, hbyte⟩ := List.mem_flatMap.1 h
  obtain rfl : ' ' = c := Char.toNat_inj.1 (toNat_eq_of_mem_utf8EncodeChar hbyte (by decide))
  exact hc

/-- Quotation marks can be counted by their bytes. -/
theorem count_quoteByte_utf8 (s : List Char) : (utf8 s).count quoteByte = s.count '"' := by
  induction s with
  | nil => rfl
  | cons c s ih =>
    rw [utf8_cons, List.count_append, ih]
    by_cases hc : c = '"'
    · subst hc
      rw [List.count_cons_self, Nat.add_comm]
      rfl
    · rw [List.count_eq_zero.2 (quoteByte_notMem_utf8EncodeChar hc), Nat.zero_add,
        List.count_cons_of_ne (by simpa using hc)]

/-- Each byte belongs to a character. -/
theorem exists_char_at : ∀ {s : List Char} {i : Nat}, i < byteLength s →
    ∃ p c r, s = p ++ c :: r ∧ byteLength p ≤ i ∧ i < byteLength p + c.utf8Size
  | [], _, h => absurd h (Nat.not_lt_zero _)
  | c :: s, i, h => by
      by_cases hi : i < c.utf8Size
      · exact ⟨[], c, s, rfl, Nat.zero_le _, by rwa [byteLength_nil, Nat.zero_add]⟩
      · rw [byteLength_cons] at h
        obtain ⟨p, d, r, rfl, hle, hlt⟩ := exists_char_at (s := s) (i := i - c.utf8Size) (by omega)
        refine ⟨c :: p, d, r, rfl, ?_, ?_⟩
        · rw [byteLength_cons]; omega
        · rw [byteLength_cons]; omega

/-! ## Blanked bytes -/

/-- The byte is blanked: it is no quotation mark, and the number of quotation marks in front of it
is odd. -/
def IsBlanked (bytes : List UInt8) (i : Nat) : Prop :=
  bytes[i]? ≠ some quoteByte ∧ ¬ Even ((bytes.take i).count quoteByte)

instance (bytes : List UInt8) (i : Nat) : Decidable (IsBlanked bytes i) :=
  inferInstanceAs (Decidable (_ ∧ _))

section

variable {p r : List Char} {c : Char} {i : Nat}

theorem getElem?_utf8_char (hle : byteLength p ≤ i) (hlt : i < byteLength p + c.utf8Size) :
    (utf8 (p ++ c :: r))[i]? = (String.utf8EncodeChar c)[i - byteLength p]? := by
  rw [utf8_append, utf8_cons, List.getElem?_append_right (by rwa [length_utf8]), length_utf8,
    List.getElem?_append_left (by rw [String.length_utf8EncodeChar]; omega)]

/-- **The bytes of quoted characters are blanked**, except those of quotation marks. -/
theorem isBlanked_iff (hle : byteLength p ≤ i) (hlt : i < byteLength p + c.utf8Size) :
    IsBlanked (utf8 (p ++ c :: r)) i ↔ c ≠ '"' ∧ quotedAt false p = true := by
  have htake : (utf8 (p ++ c :: r)).take i =
      utf8 p ++ (String.utf8EncodeChar c).take (i - byteLength p) := by
    rw [utf8_append, utf8_cons, List.take_append, length_utf8, List.take_append,
      String.length_utf8EncodeChar, List.take_of_length_le (by rwa [length_utf8]),
      Nat.sub_eq_zero_of_le (by omega : i - byteLength p ≤ c.utf8Size), List.take_zero,
      List.append_nil]
  rw [IsBlanked, getElem?_utf8_char hle hlt, htake, List.count_append, count_quoteByte_utf8]
  by_cases hc : c = '"'
  · subst hc
    have hi : i - byteLength p = 0 := by
      have hsize : Char.utf8Size '"' = 1 := rfl
      omega
    rw [hi]
    exact iff_of_false (fun h => h.1 rfl) fun h => h.1 rfl
  · have hquote := quoteByte_notMem_utf8EncodeChar hc
    rw [List.count_eq_zero.2 fun hm => hquote (List.mem_of_mem_take hm), Nat.add_zero,
      ← quotedAt_false_eq_false_iff, Bool.not_eq_false]
    exact and_congr_left' (iff_of_true (fun hm => hquote (List.mem_of_getElem? hm)) hc)

theorem blankQuoted_append_of_blanked (hc : c ≠ '"') (hq : quotedAt false p = true) :
    blankQuoted (p ++ c :: r) =
      blankQuoted p ++ (List.replicate c.utf8Size ' ' ++ blankQuotedFrom true r) := by
  rw [blankQuoted, blankQuotedFrom_append, hq, blankQuotedFrom_cons_of_blanked hc]
  rfl

theorem blankQuoted_append_of_kept (h : ¬ (c ≠ '"' ∧ quotedAt false p = true)) :
    blankQuoted (p ++ c :: r) =
      blankQuoted p ++ c :: blankQuotedFrom (quotedAt false (p ++ [c])) r := by
  rw [blankQuoted, blankQuotedFrom_append, blankQuotedFrom_cons_of_kept h, quotedAt_append]
  rfl

end

/-- **Blanking writes a space for each blanked byte**, and keeps all others. -/
theorem getElem?_utf8_blankQuoted {s : List Char} {i : Nat} (h : i < byteLength s) :
    (utf8 (blankQuoted s))[i]? =
      if IsBlanked (utf8 s) i then some spaceByte else (utf8 s)[i]? := by
  obtain ⟨p, c, r, rfl, hle, hlt⟩ := exists_char_at h
  have hlength : byteLength (blankQuoted p) = byteLength p := byteLength_blankQuotedFrom false p
  split
  next hblanked =>
    obtain ⟨hc, hq⟩ := (isBlanked_iff hle hlt).1 hblanked
    rw [blankQuoted_append_of_blanked hc hq, utf8_append, utf8_append, utf8_replicate_space,
      List.getElem?_append_right (by rwa [length_utf8, hlength]), length_utf8, hlength,
      List.getElem?_append_left (by rw [List.length_replicate]; omega),
      List.getElem?_replicate_of_lt (by omega)]
  next hkept =>
    rw [isBlanked_iff hle hlt] at hkept
    rw [blankQuoted_append_of_kept hkept, getElem?_utf8_char (by rwa [hlength]) (by rwa [hlength]),
      hlength, getElem?_utf8_char hle hlt]

/-! ## What was not blanked -/

/-- A character whose first byte was not blanked stands in the text as well. -/
theorem exists_char_of_not_isBlanked {s a b : List Char} {d : Char}
    (h : blankQuoted s = a ++ d :: b) (hkept : ¬ IsBlanked (utf8 s) (byteLength a)) :
    ∃ p r, s = p ++ d :: r ∧ byteLength p = byteLength a := by
  have hlength : ∀ t, byteLength (blankQuoted t) = byteLength t := byteLength_blankQuotedFrom false
  have hlt : byteLength a < byteLength s := by
    have hd := d.utf8Size_pos
    rw [← hlength s, h, byteLength_append, byteLength_cons]
    omega
  obtain ⟨p, c, r, rfl, hle, hlt⟩ := exists_char_at hlt
  rw [isBlanked_iff hle hlt] at hkept
  rw [blankQuoted_append_of_kept hkept] at h
  -- No other cut of the copy lies within the bytes of `c`.
  rcases append_cons_eq_append_iff.1 h with ⟨z, hz, hd⟩ | ⟨z, hz, -⟩
  · have hnil : z = [] := by
      have hbytes := congrArg byteLength hz
      rw [hlength, byteLength_append] at hbytes
      exact byteLength_eq_zero_iff.1 (by omega)
    subst hnil
    obtain rfl : d = c := (List.cons.inj hd).1
    exact ⟨p, r, rfl, by rw [← hlength, hz, List.append_nil]⟩
  · rw [hz, byteLength_append, byteLength_cons, hlength] at hlt
    omega

/-- **What holds no blanked byte stands in the text as well**, at the same place. -/
theorem exists_append_of_not_isBlanked {s : List Char} : ∀ {w a b : List Char},
    blankQuoted s = a ++ (w ++ b) → w ≠ [] →
      (∀ i, byteLength a ≤ i → i < byteLength a + byteLength w → ¬ IsBlanked (utf8 s) i) →
        ∃ p r, s = p ++ (w ++ r) ∧ byteLength p = byteLength a
  | d :: w, a, b, h, _, hkept => by
      have hd := d.utf8Size_pos
      obtain ⟨p, r, hs, hp⟩ := exists_char_of_not_isBlanked h
        (hkept _ (Nat.le_refl _) (by rw [byteLength_cons]; omega))
      by_cases hw : w = []
      · exact ⟨p, r, by rw [hs, hw]; rfl, hp⟩
      · have hbehind : blankQuoted s = (a ++ [d]) ++ (w ++ b) := by
          rw [h, List.append_assoc]
          rfl
        obtain ⟨p', r', hs', hp'⟩ := exists_append_of_not_isBlanked hbehind hw fun i hle hlt =>
          hkept i (by rw [byteLength_append] at hle; omega) (by
            rw [byteLength_append, byteLength_cons, byteLength_nil] at hlt
            rw [byteLength_cons]
            omega)
        have heq : (p ++ [d]) ++ r = p' ++ (w ++ r') := by
          rw [← hs', hs, List.append_assoc]
          rfl
        obtain ⟨rfl, -⟩ := byteLength_append_inj heq (by
          rw [hp', byteLength_append, byteLength_append, hp])
        exact ⟨p, r', by rw [hs', List.append_assoc]; rfl, hp⟩

end Gamebook.Text
