import Gamebook.Proofs.Text.Pieces
import Gamebook.Proofs.Text.Quotation

/-!
Gamebook.Proofs.Text.Comment — where a text is cut if its comment is dropped.

A comment opens at a `//` in front of which the number of quotation marks is even
(`OpensComment`). The scan looks at one character after the other and never back; still what it
keeps is the text in front of the first such place (`stripComment_firstComment`).

* `length_stripCommentFrom_le`: nothing is kept behind a place where a comment opens.
* `noComment_iff`: the texts that are kept as a whole are those in which no comment opens.
* `stripComment_comment`: a comment is cut, whatever it says.
* `stripCommentFrom_blankQuotedFrom`: it can be cut before quoted text is blanked or after that.
-/

namespace Gamebook.Text

/-! ## Texts without a comment -/

/-- Every `//` in the text is quoted. -/
def NoComment (s : List Char) : Prop :=
  ∀ x y, s = x ++ '/' :: '/' :: y → quotedAt false x = true

theorem NoComment.of_append {l s : List Char} (h : NoComment (l ++ s)) (hl : '"' ∉ l) :
    NoComment s := by
  rintro x y rfl
  have hx := h (l ++ x) y (List.append_assoc l x _).symm
  rw [quotedAt_append, quotedAt_of_notMem hl] at hx
  exact hx

theorem length_stripCommentFrom_le (y : List Char) : ∀ (x : List Char) (q : Bool),
    quotedAt q x = false → (stripCommentFrom q (x ++ '/' :: '/' :: y)).length ≤ x.length
  | [], q, hq => by
      have : q = false := hq
      subst this
      exact Nat.le_refl _
  | c :: x, q, hq => by
      have ih := length_stripCommentFrom_le y x (quotedAfter q c) hq
      rw [List.cons_append, stripCommentFrom]
      split
      · exact Nat.zero_le _
      · rw [List.length_cons, List.length_cons]
        exact Nat.succ_le_succ ih

/-- Every `//` is quoted exactly when there is no comment to cut. -/
theorem noComment_iff {s : List Char} : NoComment s ↔ stripComment s = s := by
  refine ⟨stripCommentFrom_eq_self, fun h x y hs => ?_⟩
  cases hq : quotedAt false x with
  | true => rfl
  | false =>
    have hle := length_stripCommentFrom_le y x false hq
    rw [← hs, ← stripComment, h, hs, List.length_append] at hle
    simp only [List.length_cons] at hle
    omega

instance (s : List Char) : Decidable (NoComment s) := decidable_of_iff _ noComment_iff.symm

theorem stripCommentFrom_comment (w : List Char) : ∀ (a : List Char) (q : Bool),
    (∀ x y, a ++ ['/'] = x ++ '/' :: '/' :: y → quotedAt q x = true) → quotedAt q a = false →
      stripCommentFrom q (a ++ '/' :: '/' :: w) = a
  | [], q, _, hq => by
      have : q = false := hq
      subst this
      rfl
  | c :: a, q, hfirst, hq => by
      have ih := stripCommentFrom_comment w a (quotedAfter q c)
        (fun x y h => hfirst (c :: x) y (congrArg (c :: ·) h)) hq
      have hkeep : ¬ (!q && c == '/' && (a ++ '/' :: '/' :: w).head? == some '/') = true := by
        intro h
        simp only [Bool.and_eq_true, Bool.not_eq_true', beq_iff_eq] at h
        obtain ⟨⟨rfl, rfl⟩, hhead⟩ := h
        -- A second slash would make up a comment that starts here already.
        obtain ⟨y, hy⟩ : ∃ y, a ++ ['/'] = '/' :: y := by
          cases a with
          | nil => exact ⟨[], rfl⟩
          | cons d a =>
            obtain rfl : d = '/' := by simpa using hhead
            exact ⟨a ++ ['/'], rfl⟩
        exact absurd (hfirst [] y (congrArg ('/' :: ·) hy)) (by decide)
      rw [List.cons_append, stripCommentFrom, if_neg hkeep, ih]

/-- **A comment is cut** at the first `//` that is not quoted. -/
theorem stripComment_comment {a : List Char} (hfirst : NoComment (a ++ ['/']))
    (hquoted : quotedAt false a = false) (w : List Char) :
    stripComment (a ++ '/' :: '/' :: w) = a :=
  stripCommentFrom_comment w a false hfirst hquoted

/-! ## Comments of blanked text -/

theorem head?_blankQuotedFrom_false (s : List Char) :
    (blankQuotedFrom false s).head? = s.head? := by
  cases s <;> rfl

/-- **The comment can be cut before quoted text is blanked or after that.** -/
theorem stripCommentFrom_blankQuotedFrom (s : List Char) : ∀ q : Bool,
    stripCommentFrom q (blankQuotedFrom q s) = blankQuotedFrom q (stripCommentFrom q s) := by
  induction s with
  | nil => intro q; rfl
  | cons c s ih =>
    intro q
    by_cases hblanked : c ≠ '"' ∧ q = true
    · obtain ⟨hc, rfl⟩ := hblanked
      have hkeeps : stripCommentFrom true (c :: s) = c :: stripCommentFrom true s := by
        rw [stripCommentFrom, if_neg (by simp), quotedAfter_of_ne hc]
      rw [blankQuotedFrom_cons_of_blanked hc,
        stripCommentFrom_append_of_notMem true _ (notMem_spaces (by decide) _),
        quotedAt_of_notMem (notMem_spaces (by decide) _), ih, hkeeps,
        blankQuotedFrom_cons_of_blanked hc]
    · -- If a comment can open at `c`, then quoted text is closed, so what follows starts as before.
      have hcut : (!q && c == '/' && (blankQuotedFrom (quotedAfter q c) s).head? == some '/') =
          (!q && c == '/' && s.head? == some '/') := by
        by_cases hopens : q = false ∧ c = '/'
        · obtain ⟨rfl, rfl⟩ := hopens
          rw [quotedAfter_of_ne (by decide), head?_blankQuotedFrom_false]
        · have hnot : (!q && c == '/') = false := by
            rw [← Bool.not_eq_true, Bool.and_eq_true, Bool.not_eq_true', beq_iff_eq]
            exact hopens
          rw [hnot, Bool.false_and, Bool.false_and]
      rw [blankQuotedFrom_cons_of_kept hblanked, stripCommentFrom, hcut, stripCommentFrom]
      split
      next => rfl
      next => rw [ih, blankQuotedFrom_cons_of_kept hblanked]

/-! ## The first comment -/

/-- A comment opens at the byte: `//` stands there, and the number of quotation marks in front of it
is even. -/
def OpensComment (s : List Char) (offset : Nat) : Prop :=
  ∃ p r, s = p ++ '/' :: '/' :: r ∧ byteLength p = offset ∧ Even (p.count '"')

theorem opensComment_byteLength {p : List Char} (h : quotedAt false p = false) (r : List Char) :
    OpensComment (p ++ '/' :: '/' :: r) (byteLength p) :=
  ⟨p, r, rfl, rfl, quotedAt_false_eq_false_iff.1 h⟩

/-- Every `//` is quoted exactly if no comment opens. -/
theorem noComment_iff_opensComment {s : List Char} :
    NoComment s ↔ ∀ offset, ¬ OpensComment s offset := by
  constructor
  · rintro h offset ⟨p, r, hs, -, heven⟩
    have hquoted := h p r hs
    rw [quotedAt_false_eq_false_iff.2 heven] at hquoted
    exact absurd hquoted (by decide)
  · intro h x y hs
    cases hq : quotedAt false x with
    | true => rfl
    | false => exact absurd (hs ▸ opensComment_byteLength hq y) (h _)

/-- What is kept ends in front of every place where a comment opens. -/
theorem OpensComment.byteLength_stripComment_le {s : List Char} {offset : Nat}
    (h : OpensComment s offset) : byteLength (stripComment s) ≤ offset := by
  obtain ⟨p, r, rfl, rfl, heven⟩ := h
  have hkept : stripComment (p ++ '/' :: '/' :: r) <+: p ++ '/' :: '/' :: r :=
    stripCommentFrom_prefix false _
  obtain ⟨z, hz⟩ := List.prefix_of_prefix_length_le hkept (List.prefix_append _ _)
    (length_stripCommentFrom_le r p false (quotedAt_false_eq_false_iff.2 heven))
  have hlength := congrArg byteLength hz
  rw [byteLength_append] at hlength
  omega

/-- What is kept has no comment. -/
theorem noComment_stripComment (s : List Char) : NoComment (stripComment s) := by
  rw [noComment_iff_opensComment]
  rintro offset ⟨p, r, hs, rfl, heven⟩
  obtain ⟨u, hu⟩ := stripCommentFrom_prefix false s
  have hopens : OpensComment s (byteLength p) :=
    ⟨p, r ++ u, by rw [← hu, ← stripComment, hs]; simp, rfl, heven⟩
  have hle := hopens.byteLength_stripComment_le
  rw [hs, byteLength_append, byteLength_cons] at hle
  have hpos := Char.utf8Size_pos '/'
  omega

/-- **A comment is cut where the first one opens**, and nothing else is cut. What is kept is kept if
the comment is cut again. A text without a comment that leaves quoted text closed is kept in front
of any text, unless the two meet in two slashes. -/
theorem stripComment_firstComment :
    (∀ s, (∃ offset, OpensComment s offset ∧ (∀ other, OpensComment s other → offset ≤ other) ∧
        stripComment s = textBefore offset s) ∨
      (∀ offset, ¬ OpensComment s offset) ∧ stripComment s = s) ∧
    (∀ s, stripComment (stripComment s) = stripComment s) ∧
    ∀ a b, Even (a.count '"') → stripComment a = a →
      ¬ (a.getLast? = some '/' ∧ b.head? = some '/') →
        stripComment (a ++ b) = a ++ stripComment b := by
  refine ⟨fun s => ?_, fun s => noComment_iff.1 (noComment_stripComment s), ?_⟩
  · rcases stripComment_eq_or s with hs | ⟨r, hs, hquoted⟩
    · exact Or.inr ⟨noComment_iff_opensComment.1 (noComment_iff.2 hs), hs⟩
    · refine Or.inl ⟨byteLength (stripComment s), ?_, fun other h => ?_, ?_⟩
      · have hopens := opensComment_byteLength hquoted r
        rwa [← hs] at hopens
      · exact h.byteLength_stripComment_le
      · have hbefore := textBefore_byteLength (stripComment s) ('/' :: '/' :: r)
        rw [← hs] at hbefore
        exact hbefore.symm
  · intro a b heven ha hab
    rw [stripComment, stripCommentFrom_append_of_not_meet false b ha hab,
      quotedAt_false_eq_false_iff.2 heven]
    rfl

/-- Slashes in quoted text and a single one outside. -/
theorem stripComment_firstComment_url :
    stripComment ("a \"http://b\"/".toList ++ " /c // d".toList) =
      "a \"http://b\"/".toList ++ stripComment " /c // d".toList :=
  stripComment_firstComment.2.2 _ _ (by decide) (by decide) (by decide)

end Gamebook.Text
