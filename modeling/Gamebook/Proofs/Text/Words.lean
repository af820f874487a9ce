import Gamebook.Proofs.Text.Quotation

/-!
Gamebook.Proofs.Text.Words — the words of a line.

`segments` is one loop with the state of quotation and the byte offset in hand. Here it is cut at
its breaks: a *break* is an unquoted blank, and everything follows from two equations.

* `segmentsFrom_append_break`: the segments of `a ++ c :: b`, where `c` is a break, are those of
  `a` and, further right, those of `b`.
* `segmentsAt_of_isWord`: a text without a break is one word.

`words` forgets the offsets. `exists_append_of_mem_segmentsAt` finds a segment in its line:
it starts outside quoted text, right where its offset says, and a break or the end follows it.
-/

namespace Gamebook.Text

/-- The segments of a text that stands at byte `pos`, outside quoted text. -/
def segmentsAt (pos : Nat) (s : List Char) : List Segment :=
  Segment.cons pos (segmentsFrom false pos s).1 (segmentsFrom false pos s).2

/-- The words of a text, without their places. -/
def words (s : List Char) : List (List Char) := (segments s).map Segment.text

theorem segments_eq (s : List Char) : segments s = segmentsAt 0 s := rfl

@[simp] theorem segmentsFrom_nil (q : Bool) (pos : Nat) : segmentsFrom q pos [] = ([], []) := rfl

@[simp] theorem segmentsAt_nil (pos : Nat) : segmentsAt pos [] = [] := rfl

@[simp] theorem words_nil : words [] = [] := rfl

/-- A character continues the word that it stands in, or it is a break. -/
theorem continues_or_break (q : Bool) (c : Char) :
    (isBlank c = true → q = true) ∨ isBlank c = true ∧ q = false := by
  cases q <;> cases isBlank c <;> simp

/-- At a break the word ends, and the segments behind it start anew. -/
theorem segmentsFrom_cons_of_break {c : Char} (h : isBlank c = true) (pos : Nat) (s : List Char) :
    segmentsFrom false pos (c :: s) = ([], segmentsAt (pos + c.utf8Size) s) := by
  have hq : quotedAfter false c = false := quotedAfter_of_ne (ne_quote_of_isBlank h) false
  simp [segmentsFrom, h, hq, segmentsAt]

/-- Any other character belongs to the word that `s` starts in. -/
theorem segmentsFrom_cons_of_not_break {c : Char} {q : Bool} (h : isBlank c = true → q = true)
    (pos : Nat) (s : List Char) :
    segmentsFrom q pos (c :: s) =
      (c :: (segmentsFrom (quotedAfter q c) (pos + c.utf8Size) s).1,
        (segmentsFrom (quotedAfter q c) (pos + c.utf8Size) s).2) := by
  have hbreak : ¬ ((isBlank c && !q) = true) := by
    intro hb
    simp only [Bool.and_eq_true, Bool.not_eq_true'] at hb
    rw [h hb.1] at hb
    exact absurd hb.2 (by decide)
  rw [segmentsFrom, if_neg hbreak]

theorem Segment.cons_append (pos : Nat) (w : List Char) (xs ys : List Segment) :
    Segment.cons pos w (xs ++ ys) = Segment.cons pos w xs ++ ys := by
  unfold Segment.cons
  split <;> rfl

/-! ## Cutting at a break -/

theorem segmentsFrom_append_break {c : Char} (hc : isBlank c = true) (b : List Char) :
    ∀ (a : List Char) (q : Bool) (pos : Nat), quotedAt q a = false →
      segmentsFrom q pos (a ++ c :: b) =
        ((segmentsFrom q pos a).1,
          (segmentsFrom q pos a).2 ++ segmentsAt (pos + byteLength a + c.utf8Size) b)
  | [], q, pos, hq => by
      have : q = false := hq
      subst this
      rw [List.nil_append, segmentsFrom_cons_of_break hc]
      simp
  | d :: a, q, pos, hq => by
      have ih := segmentsFrom_append_break hc b a (quotedAfter q d) (pos + d.utf8Size) hq
      have hpos : pos + d.utf8Size + byteLength a = pos + byteLength (d :: a) := by
        rw [byteLength_cons]; omega
      rw [hpos] at ih
      rw [List.cons_append]
      rcases continues_or_break q d with hd | ⟨hblank, rfl⟩
      · rw [segmentsFrom_cons_of_not_break hd, segmentsFrom_cons_of_not_break hd, ih]
      · rw [quotedAfter_of_ne (ne_quote_of_isBlank hblank)] at ih
        rw [segmentsFrom_cons_of_break hblank, segmentsFrom_cons_of_break hblank, segmentsAt, ih,
          Segment.cons_append]
        rfl

/-- **Cut at a break.** -/
theorem segmentsAt_append_break {a : List Char} {c : Char} (hq : quotedAt false a = false)
    (hc : isBlank c = true) (pos : Nat) (b : List Char) :
    segmentsAt pos (a ++ c :: b) =
      segmentsAt pos a ++ segmentsAt (pos + byteLength a + c.utf8Size) b := by
  rw [segmentsAt, segmentsFrom_append_break hc b a false pos hq, Segment.cons_append]
  rfl

/-! ## Places do not matter for words -/

theorem segmentsFrom_shift (n : Nat) : ∀ (s : List Char) (q : Bool) (pos : Nat),
    segmentsFrom q (n + pos) s =
      ((segmentsFrom q pos s).1, (segmentsFrom q pos s).2.map (Segment.shift n))
  | [], _, _ => rfl
  | c :: s, q, pos => by
      have ih := segmentsFrom_shift n s (quotedAfter q c) (pos + c.utf8Size)
      rw [← Nat.add_assoc] at ih
      rcases continues_or_break q c with hc | ⟨hblank, rfl⟩
      · rw [segmentsFrom_cons_of_not_break hc, segmentsFrom_cons_of_not_break hc, ih]
      · rw [quotedAfter_of_ne (ne_quote_of_isBlank hblank)] at ih
        rw [segmentsFrom_cons_of_break hblank, segmentsFrom_cons_of_break hblank, segmentsAt,
          segmentsAt, ih]
        unfold Segment.cons
        split <;> simp [Segment.shift, Nat.add_assoc]

theorem segmentsAt_shift (n pos : Nat) (s : List Char) :
    segmentsAt (n + pos) s = (segmentsAt pos s).map (Segment.shift n) := by
  unfold segmentsAt
  rw [segmentsFrom_shift]
  unfold Segment.cons
  split <;> simp [Segment.shift]

theorem map_text_segmentsAt (pos : Nat) (s : List Char) :
    (segmentsAt pos s).map Segment.text = words s := by
  rw [show pos = pos + 0 from rfl, segmentsAt_shift, List.map_map]
  rfl

theorem words_append_break {a : List Char} {c : Char} (hq : quotedAt false a = false)
    (hc : isBlank c = true) (b : List Char) : words (a ++ c :: b) = words a ++ words b := by
  rw [words, segments_eq, segmentsAt_append_break hq hc, List.map_append, map_text_segmentsAt,
    map_text_segmentsAt]

theorem words_cons_blank {c : Char} (hc : isBlank c = true) (s : List Char) :
    words (c :: s) = words s :=
  words_append_break (a := []) rfl hc s

/-- Blanks behind a text hold no words, unless quoted text is open there. -/
theorem segmentsAt_append_of_allBlank {a t : List Char} (hq : quotedAt false a = false)
    (ht : AllBlank t) (pos : Nat) : segmentsAt pos (a ++ t) = segmentsAt pos a := by
  induction t generalizing a pos with
  | nil => rw [List.append_nil]
  | cons c t ih =>
    have ht' : AllBlank t := fun d hd => ht d (List.mem_cons_of_mem _ hd)
    have hnil : ∀ pos, segmentsAt pos t = [] := ih (a := []) rfl ht'
    rw [segmentsAt_append_break hq (ht c (by simp)), hnil, List.append_nil]

theorem words_append_of_allBlank {a t : List Char} (hq : quotedAt false a = false)
    (ht : AllBlank t) : words (a ++ t) = words a := by
  rw [words, segments_eq, segmentsAt_append_of_allBlank hq ht]
  rfl

/-! ## Texts that are one word -/

/-- Every blank of the text is quoted, and the text is not empty. -/
def IsWord (w : List Char) : Prop :=
  w ≠ [] ∧ ∀ p c r, w = p ++ c :: r → isBlank c = true → quotedAt false p = true

/-- A text without a break is part of the word that goes on behind it. -/
theorem segmentsFrom_append_of_blanks_quoted (z : List Char) : ∀ (w : List Char) (q : Bool)
    (pos : Nat), (∀ p c r, w = p ++ c :: r → isBlank c = true → quotedAt q p = true) →
      segmentsFrom q pos (w ++ z) =
        (w ++ (segmentsFrom (quotedAt q w) (pos + byteLength w) z).1,
          (segmentsFrom (quotedAt q w) (pos + byteLength w) z).2)
  | [], _, _, _ => rfl
  | c :: w, q, pos, h => by
      have hc : isBlank c = true → q = true := fun hb => h [] c w rfl hb
      have ih := segmentsFrom_append_of_blanks_quoted z w (quotedAfter q c) (pos + c.utf8Size)
        (fun p d r hw hd => h (c :: p) d r (by rw [hw]; rfl) hd)
      rw [List.cons_append, segmentsFrom_cons_of_not_break hc, ih, byteLength_cons, Nat.add_assoc]
      rfl

theorem segmentsFrom_of_blanks_quoted (w : List Char) (q : Bool) (pos : Nat)
    (h : ∀ p c r, w = p ++ c :: r → isBlank c = true → quotedAt q p = true) :
    segmentsFrom q pos w = (w, []) := by
  have happend := segmentsFrom_append_of_blanks_quoted [] w q pos h
  rw [List.append_nil, segmentsFrom_nil, List.append_nil] at happend
  exact happend

theorem segmentsAt_of_isWord {w : List Char} (h : IsWord w) (pos : Nat) :
    segmentsAt pos w = [⟨pos, w⟩] := by
  rw [segmentsAt, segmentsFrom_of_blanks_quoted w false pos h.2, Segment.cons, if_neg h.1]

theorem words_of_isWord {w : List Char} (h : IsWord w) : words w = [w] := by
  rw [words, segments_eq, segmentsAt_of_isWord h]
  rfl

/-- A text without blanks is one word. -/
theorem isWord_of_no_blank {w : List Char} (hne : w ≠ []) (h : ∀ c ∈ w, isBlank c = false) :
    IsWord w := by
  refine ⟨hne, fun p c r hw hc => ?_⟩
  have := h c (by rw [hw]; simp)
  rw [this] at hc
  exact absurd hc (by decide)

/-- So is a text in quotation marks. -/
theorem isWord_quoted {t : List Char} (h : '"' ∉ t) : IsWord ('"' :: (t ++ ['"'])) := by
  refine ⟨by simp, fun p c r hw hc => ?_⟩
  have hne : c ≠ '"' := ne_quote_of_isBlank hc
  cases p with
  | nil =>
    rw [List.nil_append] at hw
    exact absurd (List.cons.inj hw).1.symm hne
  | cons d p =>
    obtain ⟨rfl, ht⟩ := List.cons.inj hw
    have hp : p <+: t := by
      have hpre : p <+: t ++ ['"'] := ⟨c :: r, ht.symm⟩
      rcases List.prefix_concat_iff.1 hpre with hpt | hpt
      · have hlen := congrArg List.length ht
        rw [hpt] at hlen
        simp at hlen
      · exact hpt
    show quotedAt true p = true
    exact quotedAt_of_notMem (fun hm => h (hp.subset hm)) true

/-- The first word of a text, in front of a break. -/
theorem words_append_of_stopsWord {w r : List Char} (hw : IsWord w)
    (hq : quotedAt false w = false) (hr : StopsWord r) : words (w ++ r) = w :: words r := by
  cases r with
  | nil => rw [List.append_nil, words_of_isWord hw]; rfl
  | cons c r =>
    have hc : isBlank c = true := hr c rfl
    rw [words_append_break hq hc, words_of_isWord hw, words_cons_blank hc]
    rfl

/-! ## Finding a word in its line -/

/-- The word that a text starts in, and what is found behind it. -/
theorem exists_append_segmentsFrom : ∀ (s : List Char) (q : Bool) (pos : Nat),
    ∃ w r, s = w ++ r ∧ (segmentsFrom q pos s).1 = w ∧
      (r = [] ∧ (segmentsFrom q pos s).2 = [] ∨
        ∃ c b, r = c :: b ∧ isBlank c = true ∧ quotedAt q w = false ∧
          (segmentsFrom q pos s).2 = segmentsAt (pos + byteLength w + c.utf8Size) b)
  | [], q, pos => ⟨[], [], rfl, rfl, Or.inl ⟨rfl, rfl⟩⟩
  | c :: s, q, pos => by
      rcases continues_or_break q c with hc | ⟨hblank, rfl⟩
      · obtain ⟨w, r, rfl, hw, hr⟩ :=
          exists_append_segmentsFrom s (quotedAfter q c) (pos + c.utf8Size)
        rw [segmentsFrom_cons_of_not_break hc]
        refine ⟨c :: w, r, rfl, by rw [hw], ?_⟩
        rcases hr with hr | ⟨d, b, hr, hd, hq, hb⟩
        · exact Or.inl hr
        · refine Or.inr ⟨d, b, hr, hd, hq, ?_⟩
          rw [hb, byteLength_cons]
          congr 1
          omega
      · rw [segmentsFrom_cons_of_break hblank]
        exact ⟨[], c :: s, rfl, rfl, Or.inr ⟨c, s, rfl, hblank, rfl, rfl⟩⟩

/-- **A segment stands where its offset says**, outside quoted text and between breaks. -/
theorem exists_append_of_mem_segmentsAt {seg : Segment} : ∀ {s : List Char} {pos : Nat},
    seg ∈ segmentsAt pos s →
      ∃ p r, s = p ++ seg.text ++ r ∧ seg.start = pos + byteLength p ∧
        quotedAt false p = false ∧ StopsWord r ∧ seg.text ≠ [] ∧
          ∀ c ∈ p.getLast?, isBlank c = true := by
  intro s
  induction h : s.length using Nat.strongRecOn generalizing s with
  | ind n ih =>
    intro pos hseg
    obtain ⟨w, r, hs, hw, hr⟩ := exists_append_segmentsFrom s false pos
    rw [segmentsAt, hw] at hseg
    have hcases : (seg = ⟨pos, w⟩ ∧ w ≠ []) ∨ seg ∈ (segmentsFrom false pos s).2 := by
      unfold Segment.cons at hseg
      split at hseg
      · exact Or.inr hseg
      next hne =>
        rcases List.mem_cons.1 hseg with heq | hmem
        · exact Or.inl ⟨heq, hne⟩
        · exact Or.inr hmem
    rcases hcases with ⟨rfl, hne⟩ | hmem
    · refine ⟨[], r, by simpa using hs, by simp, rfl, ?_, hne, by simp⟩
      rcases hr with ⟨rfl, -⟩ | ⟨c, b, rfl, hc, -⟩
      · intro c hc; simp at hc
      · intro d hd; simp only [List.head?_cons, Option.mem_def, Option.some.injEq] at hd
        exact hd ▸ hc
    · rcases hr with ⟨-, hnil⟩ | ⟨c, b, rfl, hc, hq, hb⟩
      · rw [hnil] at hmem; simp at hmem
      · rw [hb] at hmem
        have hlen : b.length < n := by rw [← h, hs]; simp; omega
        obtain ⟨p, r, rfl, hstart, hqp, hstop, hne, hlast⟩ := ih b.length hlen rfl hmem
        refine ⟨w ++ c :: p, r, by rw [hs]; simp, ?_, ?_, hstop, hne, fun d hd => ?_⟩
        · rw [hstart, byteLength_append, byteLength_cons]; omega
        · rw [quotedAt_append, hq, quotedAt_cons,
            quotedAfter_of_ne (ne_quote_of_isBlank hc), hqp]
        · cases p with
          | nil =>
            obtain rfl : c = d := by simpa using hd
            exact hc
          | cons e p =>
            refine hlast d ?_
            simpa [List.getLast?_append, List.getLast?_cons] using hd

/-- In a text that does not start with a word, a blank stands in front of each word. -/
theorem exists_blank_of_mem_segmentsAt {seg : Segment} {s : List Char} {pos : Nat}
    (hs : StopsWord s) (h : seg ∈ segmentsAt pos s) :
    ∃ p r, s = p ++ seg.text ++ r ∧ seg.start = pos + byteLength p ∧
      quotedAt false p = false ∧ StopsWord r ∧ seg.text ≠ [] ∧
        ∃ a c, p = a ++ [c] ∧ isBlank c = true ∧ quotedAt false a = false := by
  cases s with
  | nil => exact absurd h (by simp)
  | cons d s =>
    have hd : isBlank d = true := hs d rfl
    have hquoted : quotedAfter false d = false := quotedAfter_of_ne (ne_quote_of_isBlank hd) false
    rw [segmentsAt, segmentsFrom_cons_of_break hd] at h
    obtain ⟨p, r, rfl, hstart, hq, hstop, hne, hlast⟩ := exists_append_of_mem_segmentsAt h
    refine ⟨d :: p, r, rfl, ?_, by rw [quotedAt_cons, hquoted, hq], hstop, hne, ?_⟩
    · rw [hstart, byteLength_cons]
      omega
    · rcases List.eq_nil_or_concat p with rfl | ⟨a, c, rfl⟩
      · exact ⟨[], d, rfl, hd, rfl⟩
      · rw [List.concat_eq_append] at hq hlast ⊢
        have hc : isBlank c = true := hlast c (by simp)
        refine ⟨d :: a, c, rfl, hc, ?_⟩
        rw [quotedAt_append, quotedAt_cons, quotedAt_nil,
          quotedAfter_of_ne (ne_quote_of_isBlank hc)] at hq
        rw [quotedAt_cons, hquoted, hq]

end Gamebook.Text
