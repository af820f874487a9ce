import Gamebook.Proofs.Check.Code
import Mathlib.Data.Option.Basic

/-!
Gamebook.Proofs.Check.TextLine — text lines, trimmed or not.

The checks lay out a line as it stands, the reader lays it out trimmed and without its comment. What
is cut in front are blanks, which a run of clauses may start with anyway; what is cut behind comes
after the marker, since no slash and no quotation mark stands in front of it and the marker itself is
neither a blank nor a slash (`exists_lineBody_of_clauseRun`). So both find the same pieces, in the
same places (`layout?_lineBody`).
-/

namespace Gamebook

open Text

/-- A run of clauses is one wherever it stands. -/
theorem ClauseRun.exists_at {pos : Nat} {s : List Char} {ws : List Segment}
    (h : ClauseRun pos s ws) (pos' : Nat) : ∃ ws', ClauseRun pos' s ws' := by
  induction h generalizing pos' with
  | blanks hlead => exact ⟨[], .blanks hlead⟩
  | @word _ lead w _ _ hlead hw hstop _ ih =>
    obtain ⟨ws', hrest⟩ := ih (pos' + byteLength lead + byteLength w)
    exact ⟨_, .word hlead hw hstop hrest⟩

/-- A run of clauses without the blanks in front. -/
theorem ClauseRun.exists_trimStart {pos : Nat} {s : List Char} {ws : List Segment}
    (h : ClauseRun pos s ws) : ∃ ws', ClauseRun 0 (Text.trimStart s) ws' := by
  have hnil : AllBlank [] := by simp [AllBlank]
  cases h with
  | blanks hlead =>
    rw [trimStart_of_allBlank hlead]
    exact ⟨[], .blanks hnil⟩
  | @word _ lead w rest _ hlead hw hstop hrest =>
    obtain ⟨ws', hrest'⟩ := hrest.exists_at (0 + byteLength [] + byteLength w)
    have hhead : ∀ c ∈ (w ++ rest).head?, Text.isBlank c = false := by
      obtain ⟨c, r, rfl, -⟩ := hw.head
      intro d hd
      obtain rfl : c = d := by simpa using hd
      exact hw.isBlank c (by simp)
    rw [List.append_assoc, trimStart_append_of_allBlank hlead, trimStart_of_head hhead,
      ← List.nil_append w]
    exact ⟨_, .word hnil hw hstop hrest'⟩

/-- What the reader takes of a text line goes beyond the marker. -/
theorem exists_lineBody_of_clauseRun {pos : Nat} {pre : List Char} {ws : List Segment}
    (h : ClauseRun pos pre ws) (k : MessageKind) (post : List Char) :
    ∃ post', lineBody (pre ++ k.marker :: post) = trimStart pre ++ k.marker :: post' := by
  obtain ⟨ws', hrun⟩ := h.exists_trimStart
  have hmarker := Layout.isBlank_marker k
  have hstrip : ∀ x, ∃ y, stripComment (trimStart pre ++ k.marker :: x) =
      trimStart pre ++ k.marker :: y := by
    intro x
    have hslash : (k.marker == '/') = false := by cases k <;> decide
    refine ⟨stripCommentFrom (quotedAfter false k.marker) x, ?_⟩
    rw [stripComment, stripCommentFrom_append_of_notMem false _ (hrun.notMem (Or.inr rfl)),
      quotedAt_of_notMem (hrun.notMem (Or.inl rfl)), stripCommentFrom, hslash, Bool.and_false,
      Bool.false_and, if_neg Bool.false_ne_true]
  obtain ⟨post', hpost⟩ := hstrip (trimEnd post)
  exact ⟨trimEnd post', by rw [lineBody, trim_append_cons hmarker, hpost, trimEnd_append_cons hmarker]⟩

/-- **The reader and the checks find the same pieces of a text line.** -/
theorem layout?_lineBody (raw : List Char) :
    Option.Rel (Layout.IndentedBy (byteLength (raw.takeWhile isBlank)))
      (layout? raw) (layout? (lineBody raw)) := by
  cases hbody : layout? (lineBody raw) with
  | some m =>
    obtain ⟨rest, hraw⟩ := exists_append_lineBody raw
    obtain ⟨l, hl, hindented⟩ := exists_layout?_append (allBlank_takeWhile raw) hbody rest
    rw [← hraw] at hl
    rw [hl]
    exact .some hindented
  | none =>
    cases hl : layout? raw with
    | none => exact .none
    | some l =>
      obtain ⟨pre, post, rfl, hrun, -, -⟩ := layout?_eq_some_iff.1 hl
      obtain ⟨ws', hrun'⟩ := hrun.exists_trimStart
      obtain ⟨post', hpost⟩ := exists_lineBody_of_clauseRun hrun l.kind post
      rw [hpost] at hbody
      have hsome := isSome_layout?_iff.2 ⟨l.kind, _, post', ws', rfl, hrun'⟩
      rw [hbody] at hsome
      exact absurd hsome (by decide)

/-! ## The carriage return -/

theorem Layout.gapLength_chop (post : List Char) : gapLength (chop '\r' post) = gapLength post := by
  match post with
  | [] => rfl
  | [c] =>
    by_cases hc : c = '\r'
    · subst hc
      rfl
    · rw [chop, if_neg hc]
  | c :: d :: post => rfl

/-- The carriage return at the end of a line does not count. -/
theorem layout?_chop (raw : List Char) : layout? (chop '\r' raw) = layout? raw := by
  cases hl : layout? raw with
  | some l =>
    obtain ⟨pre, post, rfl, hrun, hmarker, htext⟩ := layout?_eq_some_iff.1 hl
    have hne : l.kind.marker ≠ '\r' := by cases l.kind <;> decide
    rw [chop_append_cons hne]
    exact layout?_eq_some_iff.2 ⟨pre, _, rfl, hrun, hmarker, by rw [htext, Layout.gapLength_chop]⟩
  | none =>
    rcases exists_chop_append '\r' raw with hraw | hraw
    · rw [← hraw]
      exact hl
    · rw [hraw] at hl
      exact layout?_eq_none_of_append hl

/-! ## The line of the checks -/

/-- **Text lines are the same for the checks and for the reader.** For every line, where `body` is
what the reader takes of it: one has a layout if the other has, with the same kind and the same
clauses, and each piece stands further right in the line by the blanks in front of it. A text line
has no keyword. What the checks do not take for code, the reader skips. -/
theorem textLine_agree (n : Nat) (raw : List Char) :
    let line := Line.ofRaw n raw
    let body := lineBody raw
    layout? line.raw = layout? raw ∧
    Option.Rel (Layout.IndentedBy (byteLength (raw.takeWhile isBlank))) (layout? raw) (layout? body) ∧
    (layout? raw = none ∨ line.keyword? = none) ∧
    (body = [] ↔ line.isCode = false) := by
  refine ⟨layout?_chop raw, layout?_lineBody raw, ?_, ?_⟩
  · cases hkeyword : (Line.ofRaw n raw).keyword? with
    | none => exact Or.inr rfl
    | some k => exact Or.inl ((layout?_chop raw).symm.trans (Line.layout?_raw_of_keyword? hkeyword))
  · rw [← not_iff_not, Bool.not_eq_false]
    exact Line.isCode_iff.symm

end Gamebook
