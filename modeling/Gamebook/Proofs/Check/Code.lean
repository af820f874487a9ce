import Gamebook.Proofs.Check.Line
import Gamebook.Proofs.Text.Pieces

/-!
Gamebook.Proofs.Check.Code — what of a line shows in its code.

References are looked for in the code of a line, where quoted text is blanked and comments are cut,
and they are reported at places of the line itself. A piece of a line *shows* (`Line.Shows`) if it
stands at the same byte of both, with the end of a word behind it.

* `shows_of_mem_arguments`: what stands outside quoted text in an argument shows.
* `shows_of_mem_clauses`: what stands in a clause of a text line shows.

A text line of the reader is a text line of the checks, with the same clauses
(`exists_layout?_of_lineBody`).
-/

namespace Gamebook

open Text

namespace Line

/-- The piece `w` stands at the same byte of the line and of its code, and no word goes on behind it
there. -/
def Shows (line : Line) (w : List Char) : Prop :=
  ∃ p p' r r', line.raw = p ++ w ++ r ∧ line.code = p' ++ w ++ r' ∧
    byteLength p' = byteLength p ∧ ∀ c ∈ r'.head?, isWordChar c = false

/-! ## Lines with a keyword -/

theorem layout?_raw_of_keyword? {line : Line} {k : Keyword} (h : line.keyword? = some k) :
    layout? line.raw = none := by
  obtain ⟨r, hr, -⟩ := Keyword.opens_iff.1 (Keyword.leading?_eq_some_iff.1 h)
  obtain ⟨t, hraw, -⟩ := exists_trim line.raw
  have hupper := k.isUpper_of_mem_letters
  rw [hraw, ← trimmed, hr]
  cases hk : k.letters with
  | nil => exact absurd hk k.letters_ne_nil
  | cons c s =>
    rw [hk] at hupper
    rw [List.append_assoc, List.cons_append]
    exact layout?_eq_none_of_isUpper (allBlank_takeWhile _) (hupper c List.mem_cons_self) _

theorem code_of_layout?_eq_none {line : Line} (h : layout? line.raw = none) :
    line.code = blankQuoted (stripComment line.raw) := by rw [code, h]

theorem code_of_keyword? {line : Line} {k : Keyword} (h : line.keyword? = some k) :
    line.code = blankQuoted (stripComment line.raw) :=
  code_of_layout?_eq_none (layout?_raw_of_keyword? h)

theorem stopsWord_blankQuotedFrom {s : List Char} (h : StopsWord s) :
    StopsWord (blankQuotedFrom false s) := by
  cases s with
  | nil => exact h
  | cons c s => exact h

/-- The line and its code around an argument. In both a blank stands in front. -/
theorem exists_append_of_mem_arguments {n : Nat} {raw : List Char} {k : Keyword} {a : Segment}
    (h : (ofRaw n raw).keyword? = some k) (ha : a ∈ (ofRaw n raw).arguments k) :
    ∃ p r r', (ofRaw n raw).raw = p ++ a.text ++ r ∧
      (ofRaw n raw).code = blankQuotedFrom false p ++ blankQuotedFrom false a.text ++
        blankQuotedFrom (quotedAt false a.text) r' ∧
      byteLength p = a.start ∧ StopsWord r' ∧ a.text ≠ [] ∧
        ∀ c ∈ (blankQuotedFrom false p).getLast?, isBlank c = true := by
  obtain ⟨r, hr, hbehind⟩ := keyword?_eq_some_iff.1 h
  obtain ⟨lead, t, hraw, hlead, ht, hindent⟩ := exists_raw n raw
  rw [arguments_eq ((trimmed_ofRaw n raw).trans hr)] at ha
  obtain ⟨u, hu⟩ := stripCommentFrom_prefix false r
  have hblankFirst : StopsWord (stripComment r) :=
    StopsWord.of_prefix (t := u) (by rw [stripComment, hu]; exact hbehind)
  obtain ⟨p, r₀, hstrip, hstart, hqp, hstop, hne, b, c, hp, hc, hqb⟩ :=
    exists_blank_of_mem_segmentsAt hblankFirst ha
  -- Blanks at the end of the line stay behind the argument, or go with the comment.
  obtain ⟨t₀, ht₀, hblank⟩ : ∃ t₀, stripCommentFrom false (r ++ t) = stripComment r ++ t₀ ∧
      AllBlank t₀ := exists_stripCommentFrom_append false r ht
  have hfront : '"' ∉ lead ++ k.letters := by
    rw [List.mem_append, not_or]
    exact ⟨hlead.quote_notMem, k.quote_notMem_letters⟩
  have hslash : '/' ∉ lead ++ k.letters := by
    rw [List.mem_append, not_or]
    exact ⟨hlead.slash_notMem, k.slash_notMem_letters⟩
  have hline : (ofRaw n raw).raw = lead ++ k.letters ++ (r ++ t) := by
    rw [hraw, hr]; simp only [List.append_assoc]
  have hcut : stripComment (ofRaw n raw).raw =
      lead ++ k.letters ++ p ++ a.text ++ (r₀ ++ t₀) := by
    rw [hline, stripComment, stripCommentFrom_append_of_notMem _ _ hslash,
      quotedAt_of_notMem hfront, ht₀, hstrip]
    simp only [List.append_assoc]
  have hqfront : quotedAt false (lead ++ k.letters ++ p) = false := by
    rw [quotedAt_append, quotedAt_of_notMem hfront, hqp]
  have hqword : quotedAt false (lead ++ k.letters ++ p ++ a.text) = quotedAt false a.text := by
    rw [quotedAt_append, hqfront]
  refine ⟨lead ++ k.letters ++ p, r₀ ++ u ++ t, r₀ ++ t₀, ?_, ?_, ?_, ?_, hne, ?_⟩
  · rw [hline, ← hu, ← stripComment, hstrip]
    simp only [List.append_assoc]
  · rw [code_of_keyword? h, hcut, blankQuoted, blankQuotedFrom_append, blankQuotedFrom_append,
      hqword, hqfront]
  · rw [hstart, byteLength_append, byteLength_append, hindent]
  · exact hstop.append hblank.stopsWord
  · have hqb' : quotedAt false (lead ++ k.letters ++ b) = false := by
      rw [quotedAt_append, quotedAt_of_notMem hfront, hqb]
    rw [hp, ← List.append_assoc, blankQuotedFrom_append, hqb', blankQuotedFrom]
    simpa [blankQuotedFrom] using hc

/-- What stands outside quoted text in an argument stands at the same byte of the line and of its
code. Behind it the code goes on as the argument does, or with a blank. -/
theorem exists_append_of_unquoted {n : Nat} {raw : List Char} {k : Keyword} {a : Segment}
    (h : (ofRaw n raw).keyword? = some k) (ha : a ∈ (ofRaw n raw).arguments k)
    {x w y : List Char} (htext : a.text = x ++ w ++ y) (hx : quotedAt false x = false)
    (hw : '"' ∉ w) : ∃ p p' r r', (ofRaw n raw).raw = p ++ w ++ r ∧
      (ofRaw n raw).code = p' ++ w ++ r' ∧ byteLength p' = byteLength p ∧
        ∀ c ∈ r'.head?, c ∈ y.head? ∨ isBlank c = true := by
  obtain ⟨p, r, r', hraw, hcode, -, hstop, -⟩ := exists_append_of_mem_arguments h ha
  have hxw : quotedAt false (x ++ w) = false := by
    rw [quotedAt_append, hx, quotedAt_of_notMem hw]
  have hxwy : quotedAt false (x ++ w ++ y) = quotedAt false y := by
    rw [quotedAt_append, hxw]
  refine ⟨p ++ x, blankQuotedFrom false p ++ blankQuotedFrom false x, y ++ r,
    blankQuotedFrom false y ++ blankQuotedFrom (quotedAt false y) r', ?_, ?_, ?_, ?_⟩
  · rw [hraw, htext]
    simp only [List.append_assoc]
  · rw [hcode, htext, blankQuotedFrom_append, blankQuotedFrom_append, hxwy, hxw, hx,
      blankQuotedFrom_of_notMem hw]
    simp only [List.append_assoc]
  · simp only [byteLength_append, byteLength_blankQuotedFrom]
  · intro c hc
    cases y with
    | nil => exact Or.inr (stopsWord_blankQuotedFrom hstop c hc)
    | cons d y => exact Or.inl hc

/-- **What stands outside quoted text in an argument shows.** -/
theorem shows_of_mem_arguments {n : Nat} {raw : List Char} {k : Keyword} {a : Segment}
    (h : (ofRaw n raw).keyword? = some k) (ha : a ∈ (ofRaw n raw).arguments k)
    {x w y : List Char} (htext : a.text = x ++ w ++ y) (hx : quotedAt false x = false)
    (hw : '"' ∉ w) (hy : ∀ c ∈ y.head?, isWordChar c = false) : (ofRaw n raw).Shows w := by
  obtain ⟨p, p', r, r', hraw, hcode, hsize, hbehind⟩ := exists_append_of_unquoted h ha htext hx hw
  refine ⟨p, p', r, r', hraw, hcode, hsize, fun c hc => ?_⟩
  rcases hbehind c hc with hc | hc
  · exact hy c hc
  · exact isWordChar_of_isBlank hc

/-! ## Text lines -/

/-- The text up to and with the marker. -/
theorem textBefore_marker (pre : List Char) (k : MessageKind) (post : List Char) :
    textBefore (byteLength pre + 1) (pre ++ k.marker :: post) = pre ++ [k.marker] := by
  have hsize : byteLength (pre ++ [k.marker]) = byteLength pre + 1 := by
    rw [byteLength_append]
    cases k <;> rfl
  rw [List.append_cons, ← hsize]
  exact textBefore_byteLength _ _

theorem code_of_clauseRun {line : Line} {pre : List Char} {ws : List Segment}
    (hrun : ClauseRun 0 pre ws) {k : MessageKind} {post : List Char}
    (hraw : line.raw = pre ++ k.marker :: post) : line.code = pre ++ [k.marker] := by
  rw [code, hraw, layout?, Layout.layoutFrom?_of_clauseRun hrun]
  show textBefore (0 + byteLength pre + 1) _ = _
  rw [Nat.zero_add, textBefore_marker]

theorem exists_append_of_layout? {line : Line} {l : Layout} (h : layout? line.raw = some l) :
    ∃ pre post, line.raw = pre ++ l.kind.marker :: post ∧ ClauseRun 0 pre l.clauses ∧
      line.code = pre ++ [l.kind.marker] := by
  obtain ⟨pre, post, hraw, hrun, -, -⟩ := layout?_eq_some_iff.1 h
  exact ⟨pre, post, hraw, hrun, code_of_clauseRun hrun hraw⟩

/-- A text line of the reader is a text line of the checks, with the same clauses. -/
theorem exists_layout?_of_lineBody {n : Nat} {raw : List Char} {l : Layout}
    (h : layout? (lineBody raw) = some l) :
    ∃ l', layout? (ofRaw n raw).raw = some l' ∧
      l'.clauses.map Segment.text = l.clauses.map Segment.text := by
  obtain ⟨rest, hraw⟩ := exists_append_lineBody (ofRaw n raw).raw
  rw [lineBody_raw] at hraw
  obtain ⟨l', hl', hindented⟩ := exists_layout?_append (allBlank_takeWhile _) h rest
  refine ⟨l', by rw [hraw, hl'], ?_⟩
  rw [hindented.clauses, List.map_map]
  rfl

/-- **What stands in a clause of a text line shows.** -/
theorem shows_of_mem_clauses {line : Line} {l : Layout} (h : layout? line.raw = some l)
    {v : Segment} (hv : v ∈ l.clauses) {x w y : List Char} (htext : v.text = x ++ w ++ y)
    (hy : ∀ c ∈ y.head?, isWordChar c = false) : line.Shows w := by
  obtain ⟨pre, post, hraw, hrun, hcode⟩ := exists_append_of_layout? h
  obtain ⟨a, b, hpre, -, hstop, -⟩ := hrun.exists_append hv
  refine ⟨a ++ x, a ++ x, y ++ b ++ l.kind.marker :: post, y ++ b ++ [l.kind.marker], ?_, ?_, rfl,
    ?_⟩
  · rw [hraw, hpre, htext]
    simp only [List.append_assoc]
  · rw [hcode, hpre, htext]
    simp only [List.append_assoc]
  · intro c hc
    cases y with
    | cons d y => exact hy c hc
    | nil =>
      cases b with
      | cons d b =>
        obtain rfl : d = c := by simpa using hc
        exact isWordChar_of_isBlank (hstop d rfl)
      | nil =>
        obtain rfl : l.kind.marker = c := by simpa using hc
        cases l.kind <;> decide

end Line

end Gamebook
