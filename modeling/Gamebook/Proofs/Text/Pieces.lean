import Gamebook.Text.Lines
import Gamebook.Text.Offset

/-!
Gamebook.Proofs.Text.Pieces — cutting at a separator, behind a run, and at an offset.

* `pieces_append_sep`, `pieces_of_notMem`: the two equations of `pieces`. Joining undoes cutting
  and cutting undoes joining (`pieces_intercalate`).
* `exists_append_of_mem_pieces` finds a piece in its text.
* `append_cons_eq_append_iff`: a cut of a text stands in front of a given character or behind it.
* `run_append_inj`, `byteLength_append_inj`: there is one way only to cut a text behind the run that
  it starts with, and one way only to cut it at an offset.
* `head?_literal`, `head?_toList_append`: the character that a message opens with.
* `Span.columns?_append`: a word in the middle of a line has the columns that its characters count.
-/

namespace Gamebook.Text

/-! ## Pieces -/

theorem pieces_cons_sep (sep : Char) (s : List Char) :
    pieces sep (sep :: s) = [] :: pieces sep s := if_pos rfl

theorem pieces_cons_of_ne {sep c : Char} (h : c ≠ sep) {s p : List Char} {ps : List (List Char)}
    (hs : pieces sep s = p :: ps) : pieces sep (c :: s) = (c :: p) :: ps := by
  rw [pieces, if_neg h, hs]

theorem pieces_append_sep (sep : Char) (b : List Char) : ∀ a : List Char,
    pieces sep (a ++ sep :: b) = pieces sep a ++ pieces sep b
  | [] => pieces_cons_sep sep b
  | c :: a => by
      have ih := pieces_append_sep sep b a
      by_cases hc : c = sep
      · subst hc
        rw [List.cons_append, pieces_cons_sep, pieces_cons_sep, ih, List.cons_append]
      · cases ha : pieces sep a with
        | nil => exact absurd ha (pieces_ne_nil sep a)
        | cons p ps =>
          rw [ha, List.cons_append] at ih
          rw [List.cons_append, pieces_cons_of_ne hc ih, pieces_cons_of_ne hc ha, List.cons_append]

theorem pieces_of_notMem {sep : Char} : ∀ {s : List Char}, sep ∉ s → pieces sep s = [s]
  | [], _ => rfl
  | c :: s, h => by
      rw [List.mem_cons, not_or] at h
      exact pieces_cons_of_ne (Ne.symm h.1) (pieces_of_notMem h.2)

/-- **Cutting undoes joining**, when no part holds the separator. -/
theorem pieces_intercalate {sep : Char} : ∀ {ps : List (List Char)}, ps ≠ [] →
    (∀ p ∈ ps, sep ∉ p) → pieces sep ([sep].intercalate ps) = ps
  | [p], _, h => by
      rw [List.intercalate_singleton]
      exact pieces_of_notMem (h p (by simp))
  | p :: q :: ps, _, h => by
      have ih : pieces sep ([sep].intercalate (q :: ps)) = q :: ps :=
        pieces_intercalate (by simp) (fun x hx => h x (List.mem_cons_of_mem _ hx))
      rw [List.intercalate_cons_cons, List.append_assoc, List.singleton_append,
        pieces_append_sep, ih, pieces_of_notMem (h p (by simp))]
      rfl

/-- The first piece ends at the first separator, or with the text. -/
theorem exists_append_of_pieces_eq_cons {sep : Char} : ∀ {s p : List Char} {ps : List (List Char)},
    pieces sep s = p :: ps → ∃ b, s = p ++ b ∧ ∀ c ∈ b.head?, c = sep
  | [], p, ps, h => by
      rw [pieces, List.cons.injEq] at h
      exact ⟨[], by rw [← h.1]; rfl, by simp⟩
  | c :: s, p, ps, h => by
      by_cases hc : c = sep
      · subst hc
        rw [pieces_cons_sep, List.cons.injEq] at h
        exact ⟨c :: s, by rw [← h.1]; rfl, by simp⟩
      · cases hs : pieces sep s with
        | nil => exact absurd hs (pieces_ne_nil sep s)
        | cons q qs =>
          rw [pieces_cons_of_ne hc hs, List.cons.injEq] at h
          obtain ⟨b, rfl, hb⟩ := exists_append_of_pieces_eq_cons hs
          exact ⟨b, by rw [← h.1]; rfl, hb⟩

/-- Any piece but the first one stands behind a separator. -/
theorem exists_append_of_mem_tail_pieces {sep : Char} {p : List Char} : ∀ {s : List Char},
    p ∈ (pieces sep s).tail → ∃ a b, s = a ++ sep :: (p ++ b) ∧ ∀ c ∈ b.head?, c = sep
  | [], h => by simp [pieces] at h
  | c :: s, h => by
      cases hs : pieces sep s with
      | nil => exact absurd hs (pieces_ne_nil sep s)
      | cons q qs =>
        have hrest : p ∈ (pieces sep s).tail →
            ∃ a b, c :: s = a ++ sep :: (p ++ b) ∧ ∀ d ∈ b.head?, d = sep := by
          intro hp
          obtain ⟨a, b, rfl, hb⟩ := exists_append_of_mem_tail_pieces hp
          exact ⟨c :: a, b, rfl, hb⟩
        by_cases hc : c = sep
        · subst hc
          rw [pieces_cons_sep, List.tail_cons, hs, List.mem_cons] at h
          rcases h with rfl | h
          · obtain ⟨b, rfl, hb⟩ := exists_append_of_pieces_eq_cons hs
            exact ⟨[], b, rfl, hb⟩
          · exact hrest (by rw [hs]; exact h)
        · rw [pieces_cons_of_ne hc hs] at h
          exact hrest (by rw [hs]; exact h)

/-- **A piece stands between two separators**, or at an end of the text. -/
theorem exists_append_of_mem_pieces {sep : Char} {s p : List Char} (h : p ∈ pieces sep s) :
    ∃ a b, s = a ++ p ++ b ∧ (∀ c ∈ a.getLast?, c = sep) ∧ ∀ c ∈ b.head?, c = sep := by
  cases hs : pieces sep s with
  | nil => exact absurd hs (pieces_ne_nil sep s)
  | cons q qs =>
    have hcases : p = q ∨ p ∈ (pieces sep s).tail := by
      rw [hs] at h ⊢
      exact List.mem_cons.1 h
    rcases hcases with rfl | htail
    · obtain ⟨b, rfl, hb⟩ := exists_append_of_pieces_eq_cons hs
      exact ⟨[], b, rfl, by simp, hb⟩
    · obtain ⟨a, b, rfl, hb⟩ := exists_append_of_mem_tail_pieces htail
      exact ⟨a ++ [sep], b, by simp, by simp, hb⟩

/-! ## Cuts -/

/-- Where a character stands, if the text around it is cut somewhere else: behind the cut, or in
front of it. -/
theorem append_cons_eq_append_iff {a b x y : List Char} {c : Char} :
    a ++ c :: b = x ++ y ↔
      (∃ z, a = x ++ z ∧ y = z ++ c :: b) ∨ ∃ z, x = a ++ c :: z ∧ b = z ++ y := by
  rw [List.append_eq_append_iff]
  constructor
  · rintro (⟨z, rfl, hz⟩ | h)
    · cases z with
      | nil => exact Or.inl ⟨[], by simp, hz.symm⟩
      | cons d z =>
        obtain ⟨rfl, rfl⟩ := List.cons.inj hz
        exact Or.inr ⟨z, rfl, rfl⟩
    · exact Or.inl h
  · rintro (h | ⟨z, rfl, rfl⟩)
    · exact Or.inr h
    · exact Or.inl ⟨c :: z, rfl, rfl⟩

/-! ## Runs -/

/-- A run ends at the first character that does not belong to it. -/
theorem takeWhile_append_of_head {p : Char → Bool} {run r : List Char}
    (hrun : ∀ c ∈ run, p c = true) (hr : ∀ c ∈ r.head?, p c = false) :
    (run ++ r).takeWhile p = run := by
  rw [List.takeWhile_append_of_pos hrun]
  cases r with
  | nil => simp
  | cons c r => simp [hr c rfl]

/-- A text can be cut behind its run in one way only. -/
theorem run_append_inj {p : Char → Bool} {run run' r s : List Char} (hrun : ∀ c ∈ run, p c = true)
    (hrun' : ∀ c ∈ run', p c = true) (hr : ∀ c ∈ r.head?, p c = false)
    (hs : ∀ c ∈ s.head?, p c = false) (h : run ++ r = run' ++ s) : run = run' ∧ r = s := by
  have heq : run = run' := by
    rw [← takeWhile_append_of_head hrun hr, h, takeWhile_append_of_head hrun' hs]
  subst heq
  exact ⟨rfl, List.append_cancel_left h⟩

/-! ## Openings -/

theorem head?_literal (c : Char) (cs : List Char) :
    (String.ofList (c :: cs)).toList.head? = some c := by
  rw [String.toList_ofList]
  rfl

theorem head?_toList_append {a b : String} {c : Char} (h : a.toList.head? = some c) :
    (a ++ b).toList.head? = some c := by
  rw [String.toList_append, List.head?_append, h]
  rfl

/-! ## Columns -/

/-- **A word in the middle of a line has columns.** -/
theorem Span.columns?_append (p : List Char) {w : List Char} (r : List Char) (hw : w ≠ []) :
    Span.columns? (p ++ w ++ r) ⟨byteLength p, byteLength p + byteLength w⟩ =
      some ⟨p.length + 1, p.length + w.length + 1⟩ := by
  have hstart : indexOf? (p ++ w ++ r) (byteLength p) = some p.length := by
    rw [List.append_assoc]
    exact indexOf?_byteLength p (w ++ r)
  have hstop : indexOf? (p ++ w ++ r) (byteLength p + byteLength w) = some (p.length + w.length) := by
    rw [← byteLength_append, ← List.length_append]
    exact indexOf?_byteLength (p ++ w) r
  have hlt : p.length < p.length + w.length := by
    have := List.length_pos_iff.2 hw
    omega
  show (indexOf? (p ++ w ++ r) (byteLength p)).bind _ = _
  rw [hstart, Option.bind_some]
  show (indexOf? (p ++ w ++ r) (byteLength p + byteLength w)).bind _ = _
  rw [hstop, Option.bind_some, if_pos hlt]

/-- The text in front of an offset that a prefix ends at. -/
theorem textBefore_byteLength (p r : List Char) : textBefore (byteLength p) (p ++ r) = p := by
  rw [textBefore, indexOf?_byteLength]
  exact List.take_left

theorem textFrom_byteLength (p r : List Char) : textFrom (byteLength p) (p ++ r) = r := by
  rw [textFrom, indexOf?_byteLength]
  exact List.drop_left

/-- A text can be cut at an offset in one way only. -/
theorem byteLength_append_inj {p q r s : List Char} (h : p ++ r = q ++ s)
    (hlength : byteLength p = byteLength q) : p = q ∧ r = s := by
  have heq : p = q := by rw [← textBefore_byteLength p r, h, hlength, textBefore_byteLength]
  subst heq
  exact ⟨rfl, List.append_cancel_left h⟩

end Gamebook.Text
