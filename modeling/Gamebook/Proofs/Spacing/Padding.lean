import Gamebook.Proofs.Spacing.View
import Gamebook.Proofs.Unread.Edit
import Gamebook.Proofs.Unread.Segment

/-!
Gamebook.Proofs.Spacing.Padding — blanks at the end of a line.

A line is padded with blanks (`Line.Padded`). Trimmed, it is the same line, and it is a text line if it
was one. Its code may go on with blanks (`exists_code_append`): no search finds anything there, and
there are no words in them. If a literal is not closed they belong to the last word, which is then no
negation and is told to be a clause or not in front of its quotation mark. So a padded line looks the
same (`Line.Padded.sameView`).
-/

namespace Gamebook

open Text

/-! ## Text lines -/

/-- A text line stays one, and no other line becomes one. -/
theorem isSome_layout?_append_of_allBlank (raw : List Char) {t : List Char} (ht : AllBlank t) :
    (layout? (raw ++ t)).isSome = (layout? raw).isSome := by
  rw [Bool.eq_iff_iff, isSome_layout?_iff, isSome_layout?_iff]
  constructor
  · rintro ⟨k, pre, post, ws, hraw, hrun⟩
    have hmarker : k.marker ∉ t := fun hm => by
      have hblank := ht _ hm
      rw [Layout.isBlank_marker] at hblank
      exact absurd hblank (by decide)
    rcases List.append_eq_append_iff.1 hraw with ⟨a, rfl, rfl⟩ | ⟨a, rfl, ha⟩
    · exact absurd (by simp) hmarker
    · cases a with
      | nil => exact absurd (by rw [← List.nil_append t, ← ha]; simp) hmarker
      | cons c a =>
        obtain ⟨rfl, -⟩ := List.cons.inj ha
        exact ⟨k, pre, a, ws, rfl, hrun⟩
  · rintro ⟨k, pre, post, ws, rfl, hrun⟩
    exact ⟨k, pre, post ++ t, ws, by simp, hrun⟩

/-! ## The code of the line -/

theorem Text.allBlank_blankQuotedFrom {t : List Char} (ht : AllBlank t) (q : Bool) :
    AllBlank (blankQuotedFrom q t) := by
  cases q with
  | false =>
    rw [blankQuotedFrom_of_notMem ht.quote_notMem]
    exact ht
  | true =>
    rw [blankQuotedFrom_true_of_notMem ht.quote_notMem]
    intro c hc
    rw [List.eq_of_mem_replicate hc]
    decide

/-- **The code goes on with blanks**, if at all. -/
theorem exists_code_append {line line' : Line} {t : List Char} (ht : AllBlank t)
    (hraw : line'.raw = line.raw ++ t) : ∃ u, AllBlank u ∧ line'.code = line.code ++ u := by
  obtain ⟨n', raw'⟩ := line'
  obtain ⟨n, raw⟩ := line
  obtain rfl : raw' = raw ++ t := hraw
  have hnil : AllBlank [] := by simp [AllBlank]
  cases hlayout : layout? raw with
  | some l =>
    obtain ⟨k, pre, post, ws, rfl, hrun⟩ := isSome_layout?_iff.1 (by rw [hlayout]; rfl)
    have hpadded : pre ++ k.marker :: post ++ t = pre ++ k.marker :: (post ++ t) := by simp
    refine ⟨[], hnil, ?_⟩
    rw [List.append_nil]
    exact (Line.code_of_clauseRun hrun hpadded).trans (Line.code_of_clauseRun hrun rfl).symm
  | none =>
    have hnone : layout? (raw ++ t) = none := by
      rw [← Option.not_isSome_iff_eq_none, isSome_layout?_append_of_allBlank raw ht, hlayout]
      decide
    rw [Line.code_of_layout?_eq_none hnone, Line.code_of_layout?_eq_none hlayout]
    obtain ⟨u, hu, hblank⟩ := exists_stripCommentFrom_append false raw ht
    refine ⟨_, allBlank_blankQuotedFrom hblank (quotedAt false (stripCommentFrom false raw)), ?_⟩
    rw [stripComment, stripComment, hu, blankQuoted, blankQuoted, blankQuotedFrom_append]

/-! ## Negations -/

namespace Text

/-- Where quoted text is open, it was opened somewhere and not closed since. -/
theorem exists_last_quote {s : List Char} (h : quotedAt false s = true) :
    ∃ x y, s = x ++ '"' :: y ∧ quotedAt false x = false ∧ '"' ∉ y := by
  induction s using List.reverseRecOn with
  | nil => exact absurd h (by decide)
  | append_singleton s c ih =>
    rw [quotedAt_append, quotedAt_cons, quotedAt_nil] at h
    by_cases hc : c = '"'
    · subst hc
      refine ⟨s, [], rfl, ?_, by simp⟩
      simpa [quotedAfter] using h
    · rw [quotedAfter_of_ne hc] at h
      obtain ⟨x, y, rfl, hx, hy⟩ := ih h
      refine ⟨x, y ++ [c], by simp, hx, ?_⟩
      simp [hy, Ne.symm hc]

/-- A literal that is not closed goes on to the end. -/
theorem isWord_open {y : List Char} (h : '"' ∉ y) : IsWord ('"' :: y) := by
  refine ⟨by simp, fun p c r hw hc => ?_⟩
  cases p with
  | nil => exact absurd (List.cons.inj hw).1.symm (ne_quote_of_isBlank hc)
  | cons d p =>
    obtain ⟨rfl, rfl⟩ := List.cons.inj hw
    have hp : '"' ∉ p := fun hm => h (List.mem_append_left _ hm)
    exact quotedAt_of_notMem hp true

end Text

/-- What stands behind a word matters to it only as a clause or none. -/
theorem isDangling_congr (word : List Char) {behind behind' : List Segment}
    (h : behind.head?.map (fun a => isClauseWord a.text) =
      behind'.head?.map fun a => isClauseWord a.text) :
    isDangling word behind = isDangling word behind' := by
  unfold isDangling
  cases behind <;> cases behind' <;> simp_all

/-- What stands behind the quotation mark of the last word does not matter. -/
theorem negationMarksIn_concat_quote (target : Line) (pos : Nat) (w x x' : List Char)
    (init : List Segment) :
    negationMarksIn target (init ++ [⟨pos, w ++ '"' :: x⟩]) =
      negationMarksIn target (init ++ [⟨pos, w ++ '"' :: x'⟩]) := by
  induction init with
  | nil =>
    simp only [List.nil_append, negationMarksIn, isDangling_append_quote]
  | cons a init ih =>
    have hdangling : isDangling a.text (init ++ [⟨pos, w ++ '"' :: x⟩]) =
        isDangling a.text (init ++ [⟨pos, w ++ '"' :: x'⟩]) := by
      refine isDangling_congr _ ?_
      cases init with
      | nil => exact congrArg some (looksInFront_isClauseWord w x x')
      | cons b init => rfl
    rw [List.cons_append, List.cons_append, negationMarksIn, negationMarksIn, hdangling, ih]

/-- **Blanks behind a text hold no negation**, and make none. -/
theorem negationMarksIn_segments_append (target : Line) (s : List Char) {u : List Char}
    (hu : AllBlank u) :
    negationMarksIn target (segments (s ++ u)) = negationMarksIn target (segments s) := by
  rw [segments_eq, segments_eq]
  cases hq : quotedAt false s with
  | false => rw [segmentsAt_append_of_allBlank hq hu]
  | true =>
    obtain ⟨x, y, rfl, hx, hy⟩ := exists_last_quote hq
    obtain ⟨init, start, w, -, -, hsegments⟩ := exists_segmentsAt_append hx 0
    have hword : ∀ y : List Char, '"' ∉ y → segmentsAt 0 (x ++ '"' :: y) =
        init ++ [⟨start, w ++ '"' :: y⟩] := by
      intro y hy
      rw [hsegments, segmentsFrom_of_blanks_quoted _ false _ (isWord_open hy).2, Segment.cons,
        if_neg (by simp)]
    have hyu : '"' ∉ y ++ u := by
      rw [List.mem_append, not_or]
      exact ⟨hy, hu.quote_notMem⟩
    rw [List.append_assoc, List.cons_append, hword _ hyu, hword y hy]
    exact negationMarksIn_concat_quote target start w _ _ init

/-! ## Padded lines -/

/-- The second line is the first one with blanks behind it, and with another number. -/
structure Line.Padded (renumber : Nat → Nat) (line line' : Line) : Prop where
  /-- The numbers. -/
  number : line'.number = renumber line.number
  /-- The lines. -/
  raw : ∃ t, AllBlank t ∧ line'.raw = line.raw ++ t

/-- **A padded line looks the same.** -/
theorem Line.Padded.sameView {renumber : Nat → Nat} {line line' : Line}
    (h : line.Padded renumber line') : line.SameView line' := by
  obtain ⟨t, ht, hraw⟩ := h.raw
  obtain ⟨u, hu, hcode⟩ := exists_code_append ht hraw
  refine ⟨?_, fun hline => ?_, ?_, fun p => ?_, fun target => ?_⟩
  · rw [trimmed, trimmed, hraw, trim_append_of_allBlank _ ht]
  · have hne : ¬ (line.raw.takeWhile Text.isBlank).length = line.raw.length := by
      intro hlength
      have hblank : AllBlank line.raw := by
        rw [← (List.takeWhile_prefix Text.isBlank).eq_of_length hlength]
        exact allBlank_takeWhile _
      rw [isCode, trimmed, trim, trimStart_of_allBlank hblank] at hline
      exact absurd hline (by decide)
    rw [indent, indent, hraw, List.takeWhile_append, if_neg hne]
  · rw [isText, isText, hraw, isSome_layout?_append_of_allBlank _ ht]
  · rw [hits, hits, hcode, Pattern.scan_append_of_allBlank p _ hu]
  · rw [hcode, negationMarksIn_segments_append target _ hu]

end Gamebook
