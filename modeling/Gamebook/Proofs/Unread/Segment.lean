import Gamebook.Proofs.Unread.Word
import Mathlib.Data.List.Forall2

/-!
Gamebook.Proofs.Unread.Segment — the words of two lines that differ in one literal.

Two such words are alike (`Segment.Alike`) when they start in the same column, end in the same
column, and have their fronts in the same columns.

A literal stands inside one word, since its blanks are quoted. The text in front of it is cut at its
last break (`exists_last_break`); what stands behind that break, the literal, and the rest of the
word behind the literal make up the word. All words in front of it stay as they are, all words
behind it move by the size of the literal (`forall₂_segmentsAt_literal`).
-/

namespace Gamebook

open Text

namespace Text

/-- The segments `a` of `s` and `a'` of `s'` stand in the same columns and hold the same word, up to
the text of one literal. -/
structure Segment.Alike (s s' : List Char) (a a' : Segment) : Prop where
  /-- The words. -/
  text : Reworded a.text a'.text
  /-- Where what stands in front of the first quotation mark ends. -/
  front : ∀ w, HasFront w a.text →
    SamePlace s s' (a.start + byteLength w) (a'.start + byteLength w)
  /-- Where the words end. -/
  stop : SamePlace s s' a.stop a'.stop

/-- The text of a literal on one line. -/
structure IsLiteralText (t : List Char) : Prop where
  /-- It does not close the literal. -/
  quote_notMem : '"' ∉ t
  /-- It does not end the line. -/
  newline_notMem : '\n' ∉ t

namespace Segment.Alike

variable {s s' : List Char} {a a' : Segment}

/-- Where the words start. -/
theorem start (h : a.Alike s s' a') : SamePlace s s' a.start a'.start :=
  h.front [] ⟨by simp, List.nil_prefix⟩

/-- Where a name behind a sigil ends. -/
theorem behind_name (h : a.Alike s s' a') {c : Char} (hc : c.utf8Size = 1) {name : List Char}
    (hname : HasFront (c :: name) a.text) :
    SamePlace s s' (a.start + 1 + byteLength name) (a'.start + 1 + byteLength name) := by
  have hplace := h.front (c :: name) hname
  rw [byteLength_cons, hc, ← Nat.add_assoc, ← Nat.add_assoc] at hplace
  exact hplace

/-- In front of the place up to which the lines agree, segments stay as they are. -/
theorem of_stop_le {b : Nat} (h : ∀ m ≤ b, SamePlace s s' m m) (ha : a.stop ≤ b) :
    a.Alike s s' a where
  text := .refl a.text
  front := by
    rintro w ⟨-, r, hr⟩
    refine h _ (Nat.le_trans ?_ ha)
    rw [Segment.stop, ← hr, byteLength_append]
    omega
  stop := h _ ha

/-- Behind the place from which the lines agree again, segments move. -/
theorem of_back {b n n' : Nat} (h : Agree s s' b n n') (j : Nat) (a : Segment) :
    (a.shift (b + n + j)).Alike s s' (a.shift (b + n' + j)) := by
  have hplace : ∀ m, SamePlace s s' (b + n + j + a.start + m) (b + n' + j + a.start + m) := by
    intro m
    have := h.back (j + a.start + m)
    simpa only [Nat.add_assoc] using this
  exact ⟨.refl a.text, fun w _ => hplace (byteLength w), hplace (byteLength a.text)⟩

end Segment.Alike

/-! ## The word in front of a place -/

/-- A text has no break, or it has a last one. -/
theorem exists_last_break : ∀ (x : List Char) (q : Bool),
    (∀ p c r, x = p ++ c :: r → isBlank c = true → quotedAt q p = true) ∨
      ∃ front c u, x = front ++ c :: u ∧ isBlank c = true ∧ quotedAt q front = false ∧
        ∀ p d r, u = p ++ d :: r → isBlank d = true → quotedAt false p = true
  | [], q => Or.inl fun p c r h => absurd h (by simp)
  | d :: x, q => by
      rcases exists_last_break x (quotedAfter q d) with hnone | ⟨front, c, u, rfl, hc, hq, hu⟩
      · rcases continues_or_break q d with hd | ⟨hblank, rfl⟩
        · refine Or.inl fun p c r h hc => ?_
          cases p with
          | nil =>
            obtain ⟨rfl, -⟩ := List.cons.inj h
            exact hd hc
          | cons e p =>
            obtain ⟨rfl, rfl⟩ := List.cons.inj h
            exact hnone p c r rfl hc
        · rw [quotedAfter_of_ne (ne_quote_of_isBlank hblank)] at hnone
          exact Or.inr ⟨[], d, x, rfl, hblank, rfl, hnone⟩
      · exact Or.inr ⟨d :: front, c, u, rfl, hc, hq, hu⟩

/-- A segment ends within its text. -/
theorem stop_le_of_mem_segmentsAt {x : List Char} {pos : Nat} {a : Segment}
    (h : a ∈ segmentsAt pos x) : a.stop ≤ pos + byteLength x := by
  obtain ⟨p, r, hx, hstart, -⟩ := exists_append_of_mem_segmentsAt h
  rw [Segment.stop, hstart, hx]
  simp only [byteLength_append]
  omega

/-- **Outside quoted text**, the words of a text are those in front of its last break, and a word
that goes on behind the text. -/
theorem exists_segmentsAt_append {x : List Char} (hx : quotedAt false x = false) (pos : Nat) :
    ∃ init start u, start + byteLength u = pos + byteLength x ∧
      (∀ a ∈ init, Segment.stop a ≤ pos + byteLength x) ∧
        ∀ z, segmentsAt pos (x ++ z) =
          init ++ Segment.cons start (u ++ (segmentsFrom false (pos + byteLength x) z).1)
            (segmentsFrom false (pos + byteLength x) z).2 := by
  rcases exists_last_break x false with hnone | ⟨front, c, u, rfl, hc, hq, hu⟩
  · refine ⟨[], pos, x, rfl, by simp, fun z => ?_⟩
    rw [segmentsAt, segmentsFrom_append_of_blanks_quoted z x false pos hnone, hx]
    rfl
  · have hu' : quotedAt false u = false := by
      rw [quotedAt_append, hq, quotedAt_cons, quotedAfter_of_ne (ne_quote_of_isBlank hc)] at hx
      exact hx
    have hpos : pos + byteLength front + c.utf8Size + byteLength u =
        pos + byteLength (front ++ c :: u) := by
      rw [byteLength_append, byteLength_cons]
      omega
    refine ⟨segmentsAt pos front, pos + byteLength front + c.utf8Size, u, hpos, ?_, fun z => ?_⟩
    · intro a ha
      have hstop := stop_le_of_mem_segmentsAt ha
      rw [byteLength_append]
      omega
    · rw [List.append_assoc, List.cons_append, segmentsAt_append_break hq hc,
        segmentsAt.eq_def _ (u ++ z), segmentsFrom_append_of_blanks_quoted z u false _ hu, hu',
        hpos]

/-- The word that a literal starts ends behind the literal. -/
theorem segmentsFrom_literal {t : List Char} (ht : '"' ∉ t) (pos : Nat) (y : List Char) :
    segmentsFrom false pos ('"' :: (t ++ '"' :: y)) =
      ('"' :: (t ++ '"' :: (segmentsFrom false 0 y).1),
        (segmentsFrom false 0 y).2.map (Segment.shift (pos + 1 + byteLength t + 1))) := by
  have hsplit : '"' :: (t ++ '"' :: y) = '"' :: (t ++ ['"']) ++ y := by simp
  have hq : quotedAt false ('"' :: (t ++ ['"'])) = false := by
    rw [quotedAt_cons, quotedAt_append, quotedAt_of_notMem ht]
    rfl
  have hsize : pos + byteLength ('"' :: (t ++ ['"'])) = pos + 1 + byteLength t + 1 + 0 := by
    simp only [byteLength_cons, byteLength_append, byteLength_nil]
    have : '"'.utf8Size = 1 := rfl
    omega
  rw [hsplit, segmentsFrom_append_of_blanks_quoted y _ false pos (isWord_quoted ht).2, hq, hsize,
    segmentsFrom_shift]
  simp

end Text

/-- In front of the place up to which the lines agree, words stay as they are. -/
theorem forall₂_segmentsAt_of_le {s s' : List Char} {b : Nat} (h : ∀ m ≤ b, SamePlace s s' m m)
    {x : List Char} {pos : Nat} (hb : pos + byteLength x ≤ b) :
    List.Forall₂ (Segment.Alike s s') (segmentsAt pos x) (segmentsAt pos x) :=
  List.forall₂_same.2 fun _ ha => .of_stop_le h (Nat.le_trans (stop_le_of_mem_segmentsAt ha) hb)

/-- **The words of two lines that differ in one literal** are alike. -/
theorem forall₂_segmentsAt_literal {s s' x t t' : List Char} {pos b : Nat}
    (hagree : Agree s s' b (byteLength t) (byteLength t')) (ht : IsLiteralText t)
    (ht' : IsLiteralText t') (hx : quotedAt false x = false) (hb : pos + byteLength x + 1 = b)
    (y : List Char) :
    List.Forall₂ (Segment.Alike s s') (segmentsAt pos (x ++ '"' :: (t ++ '"' :: y)))
      (segmentsAt pos (x ++ '"' :: (t' ++ '"' :: y))) := by
  obtain ⟨init, start, u, hstart, hinit, hsegments⟩ := exists_segmentsAt_append hx pos
  have hne : ∀ z : List Char, u ++ '"' :: z ≠ [] := by simp
  rw [hsegments, hsegments, segmentsFrom_literal ht.quote_notMem,
    segmentsFrom_literal ht'.quote_notMem]
  refine List.rel_append (List.forall₂_same.2 fun a ha => ?_) ?_
  · have hstop := hinit a ha
    exact .of_stop_le hagree.front (by omega)
  · simp only [Segment.cons, if_neg (hne _), hb]
    refine .cons ?_ ?_
    · -- The word with the literal: its front ends in front of the literal, its end lies behind.
      refine ⟨.literal u _ ht.newline_notMem ht'.newline_notMem, fun w hw => ?_, ?_⟩
      · obtain ⟨r, rfl⟩ := prefix_of_prefix_append_cons hw.1 hw.2
        refine hagree.front _ ?_
        rw [byteLength_append] at hstart
        show start + byteLength w ≤ b
        omega
      · have hback := hagree.back (byteLength ('"' :: (segmentsFrom false 0 y).1))
        have hquote : '"'.utf8Size = 1 := rfl
        simp only [Segment.stop, byteLength_append, byteLength_cons, hquote] at hback ⊢
        convert hback using 1 <;> omega
    · rw [List.forall₂_map_left_iff, List.forall₂_map_right_iff, List.forall₂_same]
      exact fun a _ => .of_back hagree 1 a

end Gamebook
