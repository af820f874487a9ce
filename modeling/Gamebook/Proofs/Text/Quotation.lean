import Gamebook.Proofs.Text.Trim
import Gamebook.Text.Segment
import Mathlib.Algebra.Group.Nat.Even

/-!
Gamebook.Proofs.Text.Quotation — comments and quoted text, cut at any place.

Whether quoted text is open at some place depends on the quotation marks in front of it only
(`quotedAt`). With that, each scan of a line splits at any place: what it does to `a ++ b` is what
it does to `a`, followed by what it does to `b` from the state behind `a`.

* `blankQuotedFrom_append` has no side condition.
* `stripCommentFrom_append_of_not_meet` asks that no comment starts in `a` or where the two meet.
* `stripComment_eq_or` is the converse: a comment that was cut starts with an unquoted `//`.
-/

namespace Gamebook.Text

/-! ## The state behind a text -/

/-- Whether quoted text is open behind `s`, where `quoted` says whether it is open before. -/
def quotedAt (quoted : Bool) (s : List Char) : Bool := s.foldl quotedAfter quoted

@[simp] theorem quotedAt_nil (q : Bool) : quotedAt q [] = q := rfl

@[simp] theorem quotedAt_cons (q : Bool) (c : Char) (s : List Char) :
    quotedAt q (c :: s) = quotedAt (quotedAfter q c) s := rfl

@[simp] theorem quotedAt_append (q : Bool) (a b : List Char) :
    quotedAt q (a ++ b) = quotedAt (quotedAt q a) b := List.foldl_append

theorem quotedAfter_of_ne {c : Char} (h : c ≠ '"') (q : Bool) : quotedAfter q c = q := if_neg h

/-- Without a quotation mark, the state stays. -/
theorem quotedAt_of_notMem {s : List Char} (h : '"' ∉ s) (q : Bool) : quotedAt q s = q := by
  induction s with
  | nil => rfl
  | cons c s ih =>
    rw [List.mem_cons, not_or] at h
    rw [quotedAt_cons, quotedAfter_of_ne (Ne.symm h.1), ih h.2]

/-- An even number of quotation marks leaves the state as it was. -/
theorem quotedAt_eq_false_iff (q : Bool) (s : List Char) :
    quotedAt q s = false ↔ (q = false ↔ Even (s.count '"')) := by
  induction s generalizing q with
  | nil => simp
  | cons c s ih =>
    by_cases hc : c = '"'
    · subst hc
      rw [quotedAt_cons, ih, List.count_cons_self, Nat.even_add_one]
      cases q <;> simp [quotedAfter]
    · rw [quotedAt_cons, quotedAfter_of_ne hc, ih, List.count_cons_of_ne (by simpa using hc)]

theorem quotedAt_false_eq_false_iff {s : List Char} :
    quotedAt false s = false ↔ Even (s.count '"') := by
  rw [quotedAt_eq_false_iff, eq_self, true_iff]

/-! ## Comments -/

/-- A text in front of which no comment starts keeps all its characters, if the two texts do not
meet in two slashes. -/
theorem stripCommentFrom_append_of_not_meet (q : Bool) {a : List Char} (b : List Char)
    (ha : stripCommentFrom q a = a) (hab : ¬ (a.getLast? = some '/' ∧ b.head? = some '/')) :
    stripCommentFrom q (a ++ b) = a ++ stripCommentFrom (quotedAt q a) b := by
  induction a generalizing q with
  | nil => rfl
  | cons c a ih =>
    rw [stripCommentFrom] at ha
    split at ha
    next => exact absurd ha (by simp)
    next hc =>
      have ha' : stripCommentFrom (quotedAfter q c) a = a := (List.cons.inj ha).2
      have hab' : ¬ (a.getLast? = some '/' ∧ b.head? = some '/') := by
        rintro ⟨hlast, hhead⟩
        exact hab ⟨by rw [List.getLast?_cons, hlast]; rfl, hhead⟩
      have hcut : ¬ ((!q && c == '/' && (a ++ b).head? == some '/') = true) := by
        intro h
        cases a with
        | cons d a => exact hc h
        | nil =>
          simp only [List.nil_append, Bool.and_eq_true, beq_iff_eq] at h
          exact hab ⟨by rw [h.1.2]; rfl, h.2⟩
      rw [List.cons_append, stripCommentFrom, if_neg hcut, ih (quotedAfter q c) ha' hab',
        quotedAt_cons]
      rfl

theorem stripCommentFrom_append (q : Bool) {a : List Char} (b : List Char)
    (ha : stripCommentFrom q a = a) (hab : ∀ c ∈ b.head?, c ≠ '/') :
    stripCommentFrom q (a ++ b) = a ++ stripCommentFrom (quotedAt q a) b :=
  stripCommentFrom_append_of_not_meet q b ha fun h => hab '/' h.2 rfl

/-- What is cut is nothing, or starts with a `//` in front of which quoted text is closed. -/
theorem stripCommentFrom_eq_or (q : Bool) (s : List Char) :
    stripCommentFrom q s = s ∨
      ∃ r, s = stripCommentFrom q s ++ '/' :: '/' :: r ∧
        quotedAt q (stripCommentFrom q s) = false := by
  induction s generalizing q with
  | nil => exact Or.inl rfl
  | cons c s ih =>
    rw [stripCommentFrom]
    split
    next h =>
      simp only [Bool.and_eq_true, Bool.not_eq_true', beq_iff_eq] at h
      obtain ⟨⟨hq, rfl⟩, hs⟩ := h
      obtain ⟨r, rfl⟩ := List.head?_eq_some_iff.1 hs
      exact Or.inr ⟨r, rfl, hq⟩
    next =>
      rcases ih (quotedAfter q c) with h | ⟨r, hr, hq⟩
      · exact Or.inl (congrArg (c :: ·) h)
      · refine Or.inr ⟨r, ?_, hq⟩
        rw [List.cons_append, ← hr]

/-- Where every `//` is quoted, nothing is cut. -/
theorem stripCommentFrom_eq_self {q : Bool} {s : List Char}
    (h : ∀ x y, s = x ++ '/' :: '/' :: y → quotedAt q x = true) : stripCommentFrom q s = s := by
  rcases stripCommentFrom_eq_or q s with hself | ⟨r, hr, hq⟩
  · exact hself
  · rw [h _ r hr] at hq
    exact absurd hq (by decide)

/-- No comment starts in a text without a slash. -/
theorem stripCommentFrom_of_notMem {s : List Char} (h : '/' ∉ s) (q : Bool) :
    stripCommentFrom q s = s :=
  stripCommentFrom_eq_self fun x y hs => absurd (by rw [hs]; simp) h

/-- Nor in a text without two slashes side by side. -/
theorem stripCommentFrom_of_not_infix {s : List Char} (q : Bool) (h : ¬ ['/', '/'] <:+: s) :
    stripCommentFrom q s = s :=
  stripCommentFrom_eq_self fun x y hs => absurd ⟨x, y, by rw [hs]; simp⟩ h

/-- Inside quoted text no comment starts. -/
theorem stripCommentFrom_true_of_notMem {s : List Char} (h : '"' ∉ s) :
    stripCommentFrom true s = s := by
  refine stripCommentFrom_eq_self fun x y hs => quotedAt_of_notMem (fun hm => h ?_) true
  rw [hs]
  exact List.mem_append_left _ hm

/-- A prefix without slashes is kept, whatever follows it. -/
theorem stripCommentFrom_append_of_notMem (q : Bool) {a : List Char} (b : List Char)
    (h : '/' ∉ a) :
    stripCommentFrom q (a ++ b) = a ++ stripCommentFrom (quotedAt q a) b :=
  stripCommentFrom_append_of_not_meet q b (stripCommentFrom_of_notMem h q) fun hmeet =>
    h (List.mem_of_getLast? hmeet.1)

theorem stripComment_eq_or (s : List Char) :
    stripComment s = s ∨
      ∃ r, s = stripComment s ++ '/' :: '/' :: r ∧ quotedAt false (stripComment s) = false :=
  stripCommentFrom_eq_or false s

/-- Blanks behind a text stay behind it, or go with its comment. -/
theorem stripCommentFrom_append_of_allBlank (q : Bool) (s : List Char) {t : List Char}
    (h : AllBlank t) :
    stripCommentFrom q (s ++ t) = stripCommentFrom q s ∨
      stripCommentFrom q s = s ∧ stripCommentFrom q (s ++ t) = s ++ t := by
  have ht : ∀ c ∈ t.head?, c ≠ '/' := fun c hc => ne_slash_of_isBlank (h.stopsWord c hc)
  induction s generalizing q with
  | nil => exact Or.inr ⟨rfl, stripCommentFrom_of_notMem h.slash_notMem q⟩
  | cons c s ih =>
    have hhead : (!q && c == '/' && (s ++ t).head? == some '/') =
        (!q && c == '/' && s.head? == some '/') := by
      cases s with
      | cons d s => rfl
      | nil =>
        have hne : t.head? ≠ some '/' := fun he => ht '/' he rfl
        simp [hne]
    rw [List.cons_append, stripCommentFrom, stripCommentFrom, hhead]
    split
    next => exact Or.inl rfl
    next =>
      rcases ih (quotedAfter q c) with hs | ⟨hs, hst⟩
      · exact Or.inl (congrArg (c :: ·) hs)
      · exact Or.inr ⟨congrArg (c :: ·) hs, congrArg (c :: ·) hst⟩

/-- Cutting the comment of a text with blanks behind it leaves blanks behind, at most. -/
theorem exists_stripCommentFrom_append (q : Bool) (s : List Char) {t : List Char}
    (ht : AllBlank t) :
    ∃ u, stripCommentFrom q (s ++ t) = stripCommentFrom q s ++ u ∧ AllBlank u := by
  rcases stripCommentFrom_append_of_allBlank q s ht with hs | ⟨hs, hst⟩
  · exact ⟨[], by rw [hs, List.append_nil], by simp [AllBlank]⟩
  · exact ⟨t, by rw [hst, hs], ht⟩

/-! ## Quoted text -/

theorem notMem_spaces {d : Char} (h : d ≠ ' ') (n : Nat) : d ∉ List.replicate n ' ' :=
  fun hm => h (List.eq_of_mem_replicate hm)

/-- A quoted character gives way to as many spaces as it has bytes, unless it is a quotation
mark. -/
theorem blankQuotedFrom_cons_of_blanked {c : Char} (hc : c ≠ '"') (s : List Char) :
    blankQuotedFrom true (c :: s) =
      List.replicate c.utf8Size ' ' ++ blankQuotedFrom true s := by
  have hblanked : (true && c != '"') = true := by
    rw [Bool.true_and, bne_iff_ne]
    exact hc
  rw [blankQuotedFrom, if_pos hblanked, quotedAfter_of_ne hc]

/-- Every other character is kept. -/
theorem blankQuotedFrom_cons_of_kept {q : Bool} {c : Char} (h : ¬ (c ≠ '"' ∧ q = true))
    (s : List Char) : blankQuotedFrom q (c :: s) = c :: blankQuotedFrom (quotedAfter q c) s := by
  have hkept : ¬ (q && c != '"') = true := by
    rwa [Bool.and_eq_true, bne_iff_ne, and_comm]
  rw [blankQuotedFrom, if_neg hkept, List.singleton_append]

theorem blankQuotedFrom_append (q : Bool) (a b : List Char) :
    blankQuotedFrom q (a ++ b) = blankQuotedFrom q a ++ blankQuotedFrom (quotedAt q a) b := by
  induction a generalizing q with
  | nil => rfl
  | cons c a ih =>
    rw [List.cons_append, blankQuotedFrom, blankQuotedFrom, ih, List.append_assoc, quotedAt_cons]

/-- Blanking leaves the quotation marks. -/
theorem quotedAt_blankQuotedFrom (s : List Char) : ∀ q : Bool,
    quotedAt q (blankQuotedFrom q s) = quotedAt q s := by
  induction s with
  | nil => intro q; rfl
  | cons c s ih =>
    intro q
    by_cases h : c ≠ '"' ∧ q = true
    · obtain ⟨hc, rfl⟩ := h
      rw [blankQuotedFrom_cons_of_blanked hc, quotedAt_append,
        quotedAt_of_notMem (notMem_spaces (by decide) _), ih, quotedAt_cons, quotedAfter_of_ne hc]
    · rw [blankQuotedFrom_cons_of_kept h, quotedAt_cons, ih, quotedAt_cons]

/-- Outside quoted text nothing is blanked. -/
theorem blankQuotedFrom_of_notMem {s : List Char} (h : '"' ∉ s) : blankQuotedFrom false s = s := by
  induction s with
  | nil => rfl
  | cons c s ih =>
    rw [List.mem_cons, not_or] at h
    rw [blankQuotedFrom_cons_of_kept (by simp), quotedAfter_of_ne (Ne.symm h.1), ih h.2]

/-- Inside quoted text everything is blanked. -/
theorem blankQuotedFrom_true_of_notMem {s : List Char} (h : '"' ∉ s) :
    blankQuotedFrom true s = List.replicate (byteLength s) ' ' := by
  induction s with
  | nil => rfl
  | cons c s ih =>
    rw [List.mem_cons, not_or] at h
    rw [blankQuotedFrom_cons_of_blanked (Ne.symm h.1), ih h.2, byteLength_cons,
      ← List.replicate_append_replicate]

end Gamebook.Text
