import Gamebook.Proofs.Place.Selection

/-!
Gamebook.Proofs.Place.Runs — the segments of a text are its maximal runs without a break.

A break is a blank in front of which the number of quotation marks is even. Nothing here but the
proofs speaks of the scan that finds the segments: `SplitsAtBreaks` says of any list of segments
that it is the list of the maximal runs between the breaks of a text, in their order.

A text is put together from texts without a break, with a break between any two
(`breakInduction`), and so are its segments:

* `SplitsAtBreaks.of_unbroken`: a text without a break is one segment, or none if it is empty;
* `SplitsAtBreaks.append_break`: behind a break the segments start anew, further right.
-/

namespace Gamebook.Text

/-! ## Breaks -/

/-- The character `c` behind the text `front` is a break: it is blank, and the number of quotation
marks in front of it is even. -/
def IsBreak (front : List Char) (c : Char) : Prop := isBlank c = true ∧ Even (front.count '"')

theorem isBreak_iff {front : List Char} {c : Char} :
    IsBreak front c ↔ isBlank c = true ∧ quotedAt false front = false := by
  rw [IsBreak, quotedAt_false_eq_false_iff]

/-- Behind a break it is as it is at the start of a text. -/
theorem IsBreak.isBreak_behind {a : List Char} {c : Char} (h : IsBreak a c) (p : List Char)
    (d : Char) : IsBreak (a ++ c :: p) d ↔ IsBreak p d := by
  obtain ⟨hblank, hquoted⟩ := isBreak_iff.1 h
  rw [isBreak_iff, isBreak_iff, quotedAt_append, quotedAt_cons, hquoted,
    quotedAfter_of_ne (ne_quote_of_isBlank hblank)]

/-- No character of the text is a break. -/
def Unbroken (s : List Char) : Prop := ∀ p c r, s = p ++ c :: r → ¬ IsBreak p c

/-- A text has no break, or it consists of two texts with a break between them. -/
theorem breakInduction {P : List Char → Prop} (unbroken : ∀ s, Unbroken s → P s)
    (append_break : ∀ a c b, IsBreak a c → P a → P b → P (a ++ c :: b)) (s : List Char) : P s := by
  induction h : s.length using Nat.strongRecOn generalizing s with
  | ind n ih =>
    by_cases hs : Unbroken s
    · exact unbroken s hs
    · unfold Unbroken at hs
      push Not at hs
      obtain ⟨a, c, b, rfl, hc⟩ := hs
      rw [List.length_append, List.length_cons] at h
      exact append_break a c b hc (ih _ (by omega) a rfl) (ih _ (by omega) b rfl)

/-! ## Maximal runs -/

/-- Between `p` and `r` the text `w` is a maximal run: it is not empty, no character of it is a
break, and it is enclosed by breaks or by the ends of the text. -/
structure IsMaximalRun (p w r : List Char) : Prop where
  /-- The run is not empty. -/
  ne_nil : w ≠ []
  /-- No character of the run is a break. -/
  unbroken : ∀ a c b, w = a ++ c :: b → ¬ IsBreak (p ++ a) c
  /-- A character right in front of it is a break. -/
  front : ∀ a c, p = a ++ [c] → IsBreak a c
  /-- A character right behind it is a break. -/
  behind : ∀ c b, r = c :: b → IsBreak (p ++ w) c

variable {p w r : List Char} {a b : List Char} {c : Char}

theorem Unbroken.isMaximalRun_iff (h : Unbroken (p ++ w ++ r)) :
    IsMaximalRun p w r ↔ w ≠ [] ∧ p = [] ∧ r = [] := by
  constructor
  · intro hrun
    refine ⟨hrun.ne_nil, ?_, ?_⟩
    · rcases List.eq_nil_or_concat p with hp | ⟨x, d, rfl⟩
      · exact hp
      · rw [List.concat_eq_append] at h hrun
        exact absurd (hrun.front x d rfl) (h x d (w ++ r) (by simp))
    · cases r with
      | nil => rfl
      | cons d y => exact absurd (hrun.behind d y rfl) (h (p ++ w) d y rfl)
  · rintro ⟨hw, rfl, rfl⟩
    refine ⟨hw, ?_, by simp, by simp⟩
    rintro x d y rfl
    exact h x d y (by simp)

/-- A run stays maximal if a break is written behind the text. -/
theorem IsMaximalRun.append_break_iff (hc : IsBreak (p ++ w ++ r) c) :
    IsMaximalRun p w (r ++ c :: b) ↔ IsMaximalRun p w r := by
  constructor
  · rintro ⟨hne, hunbroken, hfront, hbehind⟩
    refine ⟨hne, hunbroken, hfront, ?_⟩
    rintro d y rfl
    exact hbehind d (y ++ c :: b) rfl
  · rintro ⟨hne, hunbroken, hfront, hbehind⟩
    refine ⟨hne, hunbroken, hfront, ?_⟩
    intro d y hr
    cases r with
    | nil =>
      obtain rfl : c = d := (List.cons.inj hr).1
      simpa using hc
    | cons e r =>
      obtain rfl : e = d := (List.cons.inj hr).1
      exact hbehind e r rfl

/-- Behind a break, the maximal runs are those of the text that starts there. -/
theorem IsMaximalRun.behind_break_iff (hc : IsBreak a c) :
    IsMaximalRun (a ++ c :: p) w r ↔ IsMaximalRun p w r := by
  have hbehind : ∀ x d, IsBreak (a ++ c :: p ++ x) d ↔ IsBreak (p ++ x) d := by
    intro x d
    rw [List.append_assoc, List.cons_append, hc.isBreak_behind]
  constructor
  · intro h
    refine ⟨h.ne_nil, fun x d y hw => ?_, ?_, fun d y hr => ?_⟩
    · exact (hbehind x d).not.1 (h.unbroken x d y hw)
    · rintro x d rfl
      exact (hc.isBreak_behind x d).1 (h.front (a ++ c :: x) d (by simp))
    · exact (hbehind w d).1 (h.behind d y hr)
  · intro h
    refine ⟨h.ne_nil, fun x d y hw => ?_, fun x d hp => ?_, fun d y hr => ?_⟩
    · exact (hbehind x d).not.2 (h.unbroken x d y hw)
    · rcases append_cons_eq_append_iff.1 hp with ⟨z, rfl, hz⟩ | ⟨z, rfl, rfl⟩
      · cases z with
        | nil =>
          obtain rfl : d = c := (List.cons.inj hz).1
          simpa using hc
        | cons e z => exact absurd (congrArg List.length hz) (by simp)
      · exact (hc.isBreak_behind z d).2 (h.front z d rfl)
    · exact (hbehind w d).2 (h.behind d y hr)

/-- A maximal run of a text with a break lies in front of the break or behind it. -/
theorem IsMaximalRun.of_append_break (hc : IsBreak a c) (hs : a ++ c :: b = p ++ w ++ r)
    (h : IsMaximalRun p w r) :
    (∃ z, a = p ++ w ++ z ∧ r = z ++ c :: b) ∨ ∃ z, p = a ++ c :: z ∧ b = z ++ w ++ r := by
  rcases append_cons_eq_append_iff.1 hs with hfront | ⟨x, hx, rfl⟩
  · exact Or.inl hfront
  · rcases append_cons_eq_append_iff.1 hx.symm with ⟨z, rfl, hw⟩ | ⟨z, rfl, rfl⟩
    · exact absurd hc (h.unbroken z c x hw)
    · exact Or.inr ⟨z, rfl, rfl⟩

/-! ## Segments -/

/-- The byte lies in the segment. -/
def Segment.Covers (w : Segment) (n : Nat) : Prop := w.start ≤ n ∧ n < w.stop

theorem Segment.stop_shift (n : Nat) (w : Segment) : (w.shift n).stop = n + w.stop := by
  rw [stop, stop, shift, Nat.add_assoc]

theorem Segment.covers_shift_add (n m : Nat) (w : Segment) :
    (w.shift n).Covers (n + m) ↔ w.Covers m := by
  rw [Covers, Covers, stop_shift, Nat.add_lt_add_iff_left]
  exact and_congr_left' Nat.add_le_add_iff_left

/-- The segments `ws` are what is left of the text if it is cut at its breaks. -/
structure SplitsAtBreaks (s : List Char) (ws : List Segment) : Prop where
  /-- They are the maximal runs without a break, each at the byte where it stands. -/
  runs : ∀ w, w ∈ ws ↔
    ∃ p r, s = p ++ w.text ++ r ∧ w.start = byteLength p ∧ IsMaximalRun p w.text r
  /-- A character lies in one of them exactly if it is no break. -/
  covers : ∀ p c r, s = p ++ c :: r → ((∃ w ∈ ws, w.Covers (byteLength p)) ↔ ¬ IsBreak p c)
  /-- They stand from left to right, and there is a break between any two. -/
  separated : ws.Pairwise fun v w => ∃ p c r, s = p ++ c :: r ∧ IsBreak p c ∧
    v.stop ≤ byteLength p ∧ byteLength p + c.utf8Size ≤ w.start

theorem segments_of_unbroken {s : List Char} (h : Unbroken s) :
    segments s = Segment.cons 0 s [] := by
  have hquoted : ∀ p c r, s = p ++ c :: r → isBlank c = true → quotedAt false p = true := by
    intro p c r hs hblank
    cases hq : quotedAt false p with
    | true => rfl
    | false => exact absurd (isBreak_iff.2 ⟨hblank, hq⟩) (h p c r hs)
  rw [segments_eq, segmentsAt, segmentsFrom_of_blanks_quoted s false 0 hquoted]

theorem segments_append_break (hc : IsBreak a c) (b : List Char) :
    segments (a ++ c :: b) =
      segments a ++ (segments b).map (Segment.shift (byteLength a + c.utf8Size)) := by
  obtain ⟨hblank, hquoted⟩ := isBreak_iff.1 hc
  rw [segments_eq, segmentsAt_append_break hquoted hblank, segments_eq, segments_eq,
    ← segmentsAt_shift, Nat.zero_add, Nat.add_zero]

namespace SplitsAtBreaks

variable {s : List Char} {ws vs : List Segment}

/-- A segment selects its text. -/
theorem selects (h : SplitsAtBreaks s ws) {w : Segment} (hw : w ∈ ws) :
    w.text ≠ [] ∧ w.span.Selects s w.text := by
  obtain ⟨p, r, hs, hstart, hrun⟩ := (h.runs w).1 hw
  exact ⟨hrun.ne_nil, p, r, hs, by rw [Segment.span, Segment.stop, hstart]⟩

theorem stop_le (h : SplitsAtBreaks s ws) {w : Segment} (hw : w ∈ ws) : w.stop ≤ byteLength s :=
  ((h.selects hw).2.fits (h.selects hw).1).stop_le

/-- A text without a break is one segment, unless it is empty. -/
theorem of_unbroken (h : Unbroken s) : SplitsAtBreaks s (Segment.cons 0 s []) := by
  have hmem : ∀ w, w ∈ Segment.cons 0 s [] ↔ s ≠ [] ∧ w = ⟨0, s⟩ := by
    intro w
    unfold Segment.cons
    split
    next hs => simp [hs]
    next hs => simp [hs]
  constructor
  · intro w
    rw [hmem]
    constructor
    · rintro ⟨hs, rfl⟩
      refine ⟨[], [], by simp, rfl, ?_⟩
      exact (Unbroken.isMaximalRun_iff (by simpa using h)).2 ⟨hs, rfl, rfl⟩
    · rintro ⟨p, r, rfl, hstart, hrun⟩
      obtain ⟨hw, rfl, rfl⟩ := (Unbroken.isMaximalRun_iff h).1 hrun
      obtain ⟨start, text⟩ := w
      obtain rfl : start = 0 := hstart
      exact ⟨by simpa using hw, by simp⟩
  · rintro p c r rfl
    refine iff_of_true ⟨_, (hmem _).2 ⟨by simp, rfl⟩, Nat.zero_le _, ?_⟩ (h p c r rfl)
    have hpos := c.utf8Size_pos
    show byteLength p < 0 + byteLength (p ++ c :: r)
    rw [byteLength_append, byteLength_cons]
    omega
  · unfold Segment.cons
    split
    · exact List.Pairwise.nil
    · exact List.pairwise_singleton _ _

section AppendBreak

variable (ha : SplitsAtBreaks a ws) (hc : IsBreak a c) (hb : SplitsAtBreaks b vs)
include ha hc hb

theorem mem_append_shift_iff (w : Segment) :
    w ∈ ws ++ vs.map (Segment.shift (byteLength a + c.utf8Size)) ↔
      ∃ p r, a ++ c :: b = p ++ w.text ++ r ∧ w.start = byteLength p ∧
        IsMaximalRun p w.text r := by
  rw [List.mem_append, List.mem_map, ha.runs]
  constructor
  · rintro (⟨p, r, rfl, hstart, hrun⟩ | ⟨v, hv, rfl⟩)
    · exact ⟨p, r ++ c :: b, by simp, hstart, (IsMaximalRun.append_break_iff hc).2 hrun⟩
    · obtain ⟨p, r, rfl, hstart, hrun⟩ := (hb.runs v).1 hv
      refine ⟨a ++ c :: p, r, by simp [Segment.shift], ?_, ?_⟩
      · rw [byteLength_append, byteLength_cons, ← hstart, ← Nat.add_assoc]
        rfl
      · exact (IsMaximalRun.behind_break_iff hc).2 hrun
  · rintro ⟨p, r, hs, hstart, hrun⟩
    rcases hrun.of_append_break hc hs with ⟨z, rfl, rfl⟩ | ⟨z, rfl, rfl⟩
    · exact Or.inl ⟨p, z, rfl, hstart, (IsMaximalRun.append_break_iff hc).1 hrun⟩
    · refine Or.inr ⟨⟨byteLength z, w.text⟩, (hb.runs _).2 ⟨z, r, rfl, rfl, ?_⟩, ?_⟩
      · exact (IsMaximalRun.behind_break_iff hc).1 hrun
      · rw [byteLength_append, byteLength_cons, ← Nat.add_assoc] at hstart
        rw [Segment.shift, ← hstart]

theorem covers_append_shift (p : List Char) (d : Char) (r : List Char)
    (hs : a ++ c :: b = p ++ d :: r) :
    (∃ w ∈ ws ++ vs.map (Segment.shift (byteLength a + c.utf8Size)), w.Covers (byteLength p)) ↔
      ¬ IsBreak p d := by
  have hpos := c.utf8Size_pos
  simp only [List.mem_append, List.mem_map, or_and_right, exists_or, exists_exists_and_eq_and]
  rcases append_cons_eq_append_iff.1 hs with ⟨z, rfl, hz⟩ | ⟨z, rfl, rfl⟩
  · -- The character stands in front of the break, or it is the break.
    have hnotBehind : ¬ ∃ w ∈ vs,
        (w.shift (byteLength (p ++ z) + c.utf8Size)).Covers (byteLength p) := by
      rintro ⟨w, -, hstart, -⟩
      have hle : byteLength (p ++ z) + c.utf8Size + w.start ≤ byteLength p := hstart
      rw [byteLength_append] at hle
      omega
    rw [or_iff_left hnotBehind]
    cases z with
    | nil =>
      obtain rfl : d = c := (List.cons.inj hz).1
      rw [List.append_nil] at ha hc
      refine iff_of_false ?_ (not_not.2 hc)
      rintro ⟨w, hw, -, hstop⟩
      exact absurd (ha.stop_le hw) (Nat.not_le.2 hstop)
    | cons e z =>
      obtain rfl : d = e := (List.cons.inj hz).1
      exact ha.covers p d z rfl
  · have hnotFront : ¬ ∃ w ∈ ws, w.Covers (byteLength (a ++ c :: z)) := by
      rintro ⟨w, hw, -, hstop⟩
      have hle := ha.stop_le hw
      rw [byteLength_append] at hstop
      omega
    rw [or_iff_right hnotFront, hc.isBreak_behind, ← hb.covers z d r rfl, byteLength_append,
      byteLength_cons, ← Nat.add_assoc]
    simp only [Segment.covers_shift_add]

theorem pairwise_append_shift :
    (ws ++ vs.map (Segment.shift (byteLength a + c.utf8Size))).Pairwise fun v w =>
      ∃ p d r, a ++ c :: b = p ++ d :: r ∧ IsBreak p d ∧
        v.stop ≤ byteLength p ∧ byteLength p + d.utf8Size ≤ w.start := by
  rw [List.pairwise_append, List.pairwise_map]
  refine ⟨ha.separated.imp ?_, hb.separated.imp ?_, ?_⟩
  · rintro v w ⟨p, d, r, rfl, hd, hv, hw⟩
    exact ⟨p, d, r ++ c :: b, by simp, hd, hv, hw⟩
  · rintro v w ⟨p, d, r, rfl, hd, hv, hw⟩
    refine ⟨a ++ c :: p, d, r, by simp, (hc.isBreak_behind p d).2 hd, ?_, ?_⟩
    · rw [Segment.stop_shift, byteLength_append, byteLength_cons]
      omega
    · show _ ≤ byteLength a + c.utf8Size + w.start
      rw [byteLength_append, byteLength_cons]
      omega
  · intro v hv w hw
    obtain ⟨u, -, rfl⟩ := List.mem_map.1 hw
    exact ⟨a, c, b, rfl, hc, ha.stop_le hv, Nat.le_add_right _ _⟩

/-- **Behind a break the segments start anew.** -/
theorem append_break :
    SplitsAtBreaks (a ++ c :: b) (ws ++ vs.map (Segment.shift (byteLength a + c.utf8Size))) where
  runs := mem_append_shift_iff ha hc hb
  covers := covers_append_shift ha hc hb
  separated := pairwise_append_shift ha hc hb

end AppendBreak

end SplitsAtBreaks

/-- **The segments of a text are its maximal runs without a break**, from left to right, each with
the bytes at which its text stands. -/
theorem segments_splitsAtBreaks (s : List Char) :
    SplitsAtBreaks s (segments s) ∧
      ∀ w ∈ segments s, w.text ≠ [] ∧ w.span.Selects s w.text := by
  have hsplits : SplitsAtBreaks s (segments s) := by
    induction s using breakInduction with
    | unbroken s h =>
      rw [segments_of_unbroken h]
      exact SplitsAtBreaks.of_unbroken h
    | append_break a c b hc ha hb =>
      rw [segments_append_break hc]
      exact ha.append_break hc hb
  exact ⟨hsplits, fun w hw => hsplits.selects hw⟩

/-- A quotation mark inside a word opens quoted text too, and an unclosed one keeps all blanks. -/
example : segments " a\"b \"c\"\" d\" e".toList =
    [⟨1, "a\"b \"c\"\"".toList⟩, ⟨10, "d\" e".toList⟩] := by decide

end Gamebook.Text
