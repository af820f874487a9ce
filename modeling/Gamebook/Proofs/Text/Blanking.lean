import Gamebook.Proofs.Text.Words

/-!
Gamebook.Proofs.Text.Blanking — the words of a text with its quoted text blanked.

Blanking writes spaces between quotation marks. Spaces there are quoted, so they break no word, and
the marks themselves stay. Each word of the blanked text is a word of the text, blanked
(`segmentsAt_blankQuoted`), and it stands where the word stood.
-/

namespace Gamebook.Text

/-! ## Blanks in front -/

theorem segmentsAt_append_blanks {lead : List Char} (h : AllBlank lead) (pos : Nat)
    (s : List Char) : segmentsAt pos (lead ++ s) = segmentsAt (pos + byteLength lead) s := by
  induction lead generalizing pos with
  | nil => rfl
  | cons c lead ih =>
    have hlead : AllBlank lead := fun d hd => h d (List.mem_cons_of_mem _ hd)
    have hc : isBlank c = true := h c List.mem_cons_self
    have hbreak := segmentsAt_append_break (a := []) rfl hc pos (lead ++ s)
    rw [List.nil_append, segmentsAt_nil, List.nil_append] at hbreak
    rw [List.cons_append, hbreak, ih hlead, byteLength_cons]
    congr 1
    rw [byteLength_nil]
    omega

/-! ## Blanked words -/

/-- The segment with its quoted text blanked. -/
def Segment.blanked (w : Segment) : Segment := ⟨w.start, blankQuoted w.text⟩

theorem blankQuoted_eq_nil_iff {s : List Char} : blankQuoted s = [] ↔ s = [] := by
  rw [← byteLength_eq_zero_iff, blankQuoted, byteLength_blankQuotedFrom, byteLength_eq_zero_iff]

theorem Segment.cons_blanked (pos : Nat) (w : List Char) (ws : List Segment) :
    Segment.cons pos (blankQuoted w) (ws.map blanked) = (Segment.cons pos w ws).map blanked := by
  unfold Segment.cons
  by_cases hw : w = []
  · rw [if_pos hw, if_pos (blankQuoted_eq_nil_iff.2 hw)]
  · rw [if_neg hw, if_neg fun h => hw (blankQuoted_eq_nil_iff.1 h)]
    rfl

/-- Spaces inside quoted text belong to the word that goes on behind them. -/
theorem segmentsFrom_spaces (n pos : Nat) (s : List Char) :
    segmentsFrom true pos (List.replicate n ' ' ++ s) =
      (List.replicate n ' ' ++ (segmentsFrom true (pos + n) s).1,
        (segmentsFrom true (pos + n) s).2) := by
  have hquote : ∀ m, '"' ∉ List.replicate m ' ' := notMem_spaces (by decide)
  have hopen : ∀ p c r, List.replicate n ' ' = p ++ c :: r → isBlank c = true →
      quotedAt true p = true := by
    intro p c r hp _
    refine quotedAt_of_notMem (fun hm => hquote n ?_) true
    rw [hp]
    exact List.mem_append_left _ hm
  have hword := segmentsFrom_append_of_blanks_quoted s (List.replicate n ' ') true pos hopen
  rwa [quotedAt_of_notMem (hquote n), byteLength_replicate_space] at hword

theorem segmentsFrom_blankQuotedFrom : ∀ (s : List Char) (q : Bool) (pos : Nat),
    segmentsFrom q pos (blankQuotedFrom q s) =
      (blankQuotedFrom q (segmentsFrom q pos s).1, (segmentsFrom q pos s).2.map Segment.blanked)
  | [], _, _ => rfl
  | c :: s, q, pos => by
      have ih := segmentsFrom_blankQuotedFrom s (quotedAfter q c) (pos + c.utf8Size)
      rcases continues_or_break q c with hc | ⟨hblank, rfl⟩
      · rw [segmentsFrom_cons_of_not_break hc]
        by_cases hquoted : c ≠ '"' ∧ q = true
        · obtain ⟨hne, rfl⟩ := hquoted
          rw [quotedAfter_of_ne hne] at ih ⊢
          rw [blankQuotedFrom_cons_of_blanked hne, blankQuotedFrom_cons_of_blanked hne,
            segmentsFrom_spaces, ih]
        · rw [blankQuotedFrom_cons_of_kept hquoted, blankQuotedFrom_cons_of_kept hquoted,
            segmentsFrom_cons_of_not_break hc, ih]
      · rw [quotedAfter_of_ne (ne_quote_of_isBlank hblank)] at ih
        rw [blankQuotedFrom_cons_of_kept (by simp),
          quotedAfter_of_ne (ne_quote_of_isBlank hblank), segmentsFrom_cons_of_break hblank,
          segmentsFrom_cons_of_break hblank, segmentsAt, ih, segmentsAt]
        exact congrArg (Prod.mk []) (Segment.cons_blanked _ _ _)

/-- **Blanking a text blanks its words**, and leaves them where they are. -/
theorem segmentsAt_blankQuoted (pos : Nat) (s : List Char) :
    segmentsAt pos (blankQuoted s) = (segmentsAt pos s).map Segment.blanked := by
  rw [segmentsAt, blankQuoted, segmentsFrom_blankQuotedFrom]
  exact Segment.cons_blanked _ _ _

theorem map_span_segments_blankQuoted (s : List Char) :
    (segments (blankQuoted s)).map Segment.span = (segments s).map Segment.span := by
  have hspan : Segment.span ∘ Segment.blanked = Segment.span := by
    funext w
    show Span.mk w.start (w.start + byteLength (blankQuoted w.text)) = w.span
    rw [blankQuoted, byteLength_blankQuotedFrom]
    rfl
  rw [segments_eq, segmentsAt_blankQuoted, List.map_map, hspan]
  rfl

/-! ## What a blanked word shows -/

/-- A text with a quotation mark keeps what stands in front of it, and the mark. -/
theorem exists_blankQuoted_of_mem {s : List Char} (h : '"' ∈ s) :
    ∃ u x x', s = u ++ '"' :: x ∧ blankQuoted s = u ++ '"' :: x' := by
  obtain ⟨u, x, rfl, hu⟩ := List.eq_append_cons_of_mem h
  refine ⟨u, x, blankQuotedFrom true x, rfl, ?_⟩
  rw [blankQuoted, blankQuotedFrom_append, blankQuotedFrom_of_notMem hu, quotedAt_of_notMem hu]
  rfl

/-- A text is not blanked into one without quotation marks, unless it is that text. -/
theorem blankQuoted_eq_iff {s v : List Char} (hv : '"' ∉ v) : blankQuoted s = v ↔ s = v := by
  by_cases hs : '"' ∈ s
  · obtain ⟨u, x, x', rfl, hblank⟩ := exists_blankQuoted_of_mem hs
    rw [hblank]
    constructor
    · rintro rfl
      exact absurd (by simp) hv
    · rintro rfl
      exact absurd (by simp) hv
  · rw [blankQuoted, blankQuotedFrom_of_notMem hs]

end Gamebook.Text
