import Gamebook.Proofs.Check.TextLine
import Gamebook.Proofs.Text.Comment
import Gamebook.Proofs.Unread.Word
import Mathlib.Logic.Relation

/-!
Gamebook.Proofs.Unread.Edit — edits of what is not code.

A line has text that is not code in three places: behind the marker of a text line, behind the first
unquoted `//` of any other line, and between the quotation marks of a literal in front of that `//`.
A `LineEdit` replaces one of these texts; `TextEdit` is such an edit on one line of a text.

* `stripComment_literal`, `blankQuoted_literal`: what is left of a line with a literal.
* `isSome_layout?_append_cons`: quotation marks and slashes stand behind the marker of a text line
  only, so an edited line is a text line exactly when it was one.
* `LineEdit.chop`: the carriage return at the end of a line does not count.
-/

namespace Gamebook

open Text

namespace Text

/-! ## Literals -/

/-- **A literal stays**, whatever its text is. -/
theorem stripComment_literal {p t : List Char} (hfirst : NoComment p)
    (hquoted : quotedAt false p = false) (ht : '"' ∉ t) (r : List Char) :
    stripComment (p ++ '"' :: (t ++ '"' :: r)) =
      p ++ '"' :: (t ++ '"' :: stripCommentFrom false r) := by
  have hslash : ∀ (z : List Char), ∀ c ∈ ('"' :: z).head?, c ≠ '/' := by
    intro z c hc
    obtain rfl : '"' = c := by simpa using hc
    decide
  rw [stripComment, stripCommentFrom_append false _ (noComment_iff.1 hfirst) (hslash _),
    hquoted]
  show p ++ '"' :: stripCommentFrom true (t ++ '"' :: r) = _
  rw [stripCommentFrom_append true _ (stripCommentFrom_true_of_notMem ht) (hslash _),
    quotedAt_of_notMem ht]
  rfl

theorem blankQuoted_literal {p t : List Char} (hquoted : quotedAt false p = false) (ht : '"' ∉ t)
    (r : List Char) :
    blankQuoted (p ++ '"' :: (t ++ '"' :: r)) =
      blankQuoted p ++ '"' :: (List.replicate (byteLength t) ' ' ++ '"' :: blankQuoted r) := by
  rw [blankQuoted, blankQuotedFrom_append, hquoted]
  show blankQuoted p ++ '"' :: blankQuotedFrom true (t ++ '"' :: r) = _
  rw [blankQuotedFrom_append, blankQuotedFrom_true_of_notMem ht, quotedAt_of_notMem ht]
  rfl

end Text

/-! ## Text lines -/

/-- **Text lines are told in front of the first quotation mark and the first slash.** -/
theorem isSome_layout?_append_cons {c : Char} (hc : c = '"' ∨ c = '/') (s x : List Char) :
    (layout? (s ++ c :: x)).isSome = (layout? s).isSome := by
  rw [Bool.eq_iff_iff, isSome_layout?_iff, isSome_layout?_iff]
  constructor
  · rintro ⟨k, pre, post, ws, hs, hrun⟩
    have hmem : c ∉ pre ++ [k.marker] := by
      rw [List.mem_append, not_or]
      refine ⟨hrun.notMem hc, ?_⟩
      rcases hc with rfl | rfl <;> cases k <;> decide
    have hprefix : pre ++ [k.marker] <+: s ++ c :: x := ⟨post, by rw [hs]; simp⟩
    obtain ⟨r, rfl⟩ := prefix_of_prefix_append_cons hmem hprefix
    exact ⟨k, pre, r, ws, by simp, hrun⟩
  · rintro ⟨k, pre, post, ws, rfl, hrun⟩
    exact ⟨k, pre, post ++ c :: x, ws, by simp, hrun⟩

/-! ## Edits -/

/-- The first line becomes the second one by an edit of what is not code. -/
inductive LineEdit : List Char → List Char → Prop
  /-- Everything behind the marker of a text line is replaced. -/
  | message {raw : List Char} {l : Layout} (h : layout? raw = some l) (w : List Char) :
      LineEdit raw (textBefore (l.marker + 1) raw ++ w)
  /-- On any other line, everything behind the first `//` outside quotes is replaced. -/
  | comment {a : List Char} (w w' : List Char) (h : layout? (a ++ '/' :: '/' :: w) = none)
      (hquoted : quotedAt false a = false) (hfirst : NoComment (a ++ ['/'])) :
      LineEdit (a ++ '/' :: '/' :: w) (a ++ '/' :: '/' :: w')
  /-- On such a line, the interior of a closed literal in front of the comment is replaced by as
  many characters, none of them a quotation mark. -/
  | literal {p t t' r : List Char} (h : layout? (p ++ '"' :: (t ++ '"' :: r)) = none)
      (hquoted : quotedAt false p = false) (hfirst : NoComment p) (ht : '"' ∉ t) (ht' : '"' ∉ t')
      (hlength : t.length = t'.length) :
      LineEdit (p ++ '"' :: (t ++ '"' :: r)) (p ++ '"' :: (t' ++ '"' :: r))

/-- One line of the text is edited. No line feed is put in: the other lines stay as they are. -/
def TextEdit (text text' : String) : Prop :=
  ∃ before raw raw' after, LineEdit raw raw' ∧
    lines text.toList = before ++ raw :: after ∧ lines text'.toList = before ++ raw' :: after

/-- The message of a text line is replaced. -/
theorem LineEdit.of_clauseRun {pre : List Char} {ws : List Segment} (hrun : ClauseRun 0 pre ws)
    (k : MessageKind) (post w : List Char) :
    LineEdit (pre ++ k.marker :: post) (pre ++ k.marker :: w) := by
  have hedit := LineEdit.message (Layout.layoutFrom?_of_clauseRun hrun k post) w
  rw [Nat.zero_add, Line.textBefore_marker, ← List.append_cons] at hedit
  exact hedit

/-- **An edited line is edited the same way** without the carriage return at its end. -/
theorem LineEdit.chop {raw raw' : List Char} (h : LineEdit raw raw') :
    LineEdit (chop '\r' raw) (chop '\r' raw') := by
  cases h with
  | @message _ l hl w =>
    obtain ⟨pre, post, rfl, hrun, hmarker, -⟩ := layout?_eq_some_iff.1 hl
    have hne : l.kind.marker ≠ '\r' := by cases l.kind <;> decide
    rw [hmarker, Line.textBefore_marker, ← List.append_cons, chop_append_cons hne,
      chop_append_cons hne]
    exact of_clauseRun hrun l.kind _ _
  | @comment a w w' hl hquoted hfirst =>
    have hchop : ∀ w, Text.chop '\r' (a ++ '/' :: '/' :: w) =
        a ++ '/' :: '/' :: Text.chop '\r' w := by
      intro w
      rw [List.append_cons, chop_append_cons (by decide), ← List.append_cons]
    have hnone := (layout?_chop _).trans hl
    rw [hchop] at hnone
    rw [hchop, hchop]
    exact .comment _ _ hnone hquoted hfirst
  | @literal p t t' r hl hquoted hfirst ht ht' hlength =>
    have hchop : ∀ t, Text.chop '\r' (p ++ '"' :: (t ++ '"' :: r)) =
        p ++ '"' :: (t ++ '"' :: Text.chop '\r' r) := by
      intro t
      have hcut : Text.chop '\r' (p ++ '"' :: t ++ '"' :: r) =
          p ++ '"' :: t ++ '"' :: Text.chop '\r' r := chop_append_cons (by decide) r _
      simpa only [List.append_assoc, List.cons_append] using hcut
    have hnone := (layout?_chop _).trans hl
    rw [hchop] at hnone
    rw [hchop, hchop]
    exact .literal hnone hquoted hfirst ht ht' hlength

end Gamebook
