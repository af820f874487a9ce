import Gamebook.Proofs.Check.Code
import Gamebook.Proofs.Pattern.Word
import Gamebook.Proofs.Text.Bytes

/-!
Gamebook.Proofs.Place.Selection — the word that stands at a place.

A span *selects* a word of a line if the word stands on the line between its two offsets
(`Span.Selects`). A span that selects a word that is not empty fits the line, so it has columns, and
the characters between these columns are the word again (`Span.Selects.exists_columns`).

Words are found in three ways, and each time the offsets are those of the line:

* `Line.selects_keywordSpan`: the keyword, behind the indent;
* `Line.selects_of_mem_arguments`: an argument, in what is left behind the keyword;
* `Line.selects_of_code`: a word in the code of the line, where quoted text has been blanked. What
  holds no space was not blanked, so it stands in the line too. So do the words that a search finds
  (`Line.selects_captured`, `Line.selects_whole`), since it finds them in the code where its offsets
  say (`Pattern.selects_group`).
-/

namespace Gamebook

open Text

namespace Text

/-! ## Spans and columns -/

/-- The offset lies between two characters of the text, or at one of its ends. -/
def IsBoundary (s : List Char) (offset : Nat) : Prop := ∃ p r, s = p ++ r ∧ byteLength p = offset

/-- The span is a stretch of the line: it is not empty, it does not reach behind the line, and it
starts and ends between characters. -/
structure Span.Fits (line : List Char) (span : Span) : Prop where
  /-- The span is not empty. -/
  start_lt_stop : span.start < span.stop
  /-- It does not reach behind the line. -/
  stop_le : span.stop ≤ byteLength line
  /-- It starts between two characters. -/
  start : IsBoundary line span.start
  /-- It ends between two characters. -/
  stop : IsBoundary line span.stop

/-- The word `w` stands on the line between the two offsets. -/
def Span.Selects (line : List Char) (span : Span) (w : List Char) : Prop :=
  ∃ p r, line = p ++ w ++ r ∧ span = ⟨byteLength p, byteLength p + byteLength w⟩

/-- The characters of the line between the two columns. -/
def Columns.select (line : List Char) (columns : Columns) : List Char :=
  (line.drop (columns.start - 1)).take (columns.stop - columns.start)

/-- The columns are those of a stretch of the line: they count from 1, and there is at least one
character between them. -/
structure Columns.Fits (line : List Char) (columns : Columns) : Prop where
  /-- Columns count from 1. -/
  one_le_start : 1 ≤ columns.start
  /-- The stretch is not empty. -/
  start_lt_stop : columns.start < columns.stop
  /-- It does not reach behind the line. -/
  stop_le : columns.stop ≤ line.length + 1

theorem byteLength_pos {w : List Char} (h : w ≠ []) : 0 < byteLength w :=
  Nat.pos_of_ne_zero fun hzero => h (byteLength_eq_zero_iff.1 hzero)

namespace Span.Selects

variable {line w : List Char} {span : Span}

theorem of_append (p r w : List Char) :
    Selects (p ++ w ++ r) ⟨byteLength p, byteLength p + byteLength w⟩ w := ⟨p, r, rfl, rfl⟩

/-- The beginning of a word that is selected. -/
theorem of_prefix {start stop : Nat} {v : List Char} (h : Selects line ⟨start, stop⟩ (w ++ v)) :
    Selects line ⟨start, start + byteLength w⟩ w := by
  obtain ⟨p, r, rfl, hspan⟩ := h
  obtain ⟨rfl, -⟩ := Span.mk.inj hspan
  exact ⟨p, v ++ r, by simp only [List.append_assoc], rfl⟩

/-- **A span that selects a word fits the line.** -/
theorem fits (h : span.Selects line w) (hw : w ≠ []) : span.Fits line := by
  obtain ⟨p, r, rfl, rfl⟩ := h
  have hpos := byteLength_pos hw
  constructor
  · show byteLength p < byteLength p + byteLength w
    omega
  · show byteLength p + byteLength w ≤ byteLength (p ++ w ++ r)
    rw [byteLength_append, byteLength_append]
    omega
  · exact ⟨p, w ++ r, List.append_assoc _ _ _, rfl⟩
  · exact ⟨p ++ w, r, rfl, byteLength_append p w⟩

/-- **It has columns, and the word stands between them.** -/
theorem exists_columns (h : span.Selects line w) (hw : w ≠ []) :
    ∃ columns, span.columns? line = some columns ∧ columns.Fits line ∧ columns.select line = w := by
  obtain ⟨p, r, rfl, rfl⟩ := h
  have hpos := List.length_pos_iff.2 hw
  refine ⟨_, Span.columns?_append p r hw, ⟨?_, ?_, ?_⟩, ?_⟩
  · show 1 ≤ p.length + 1
    omega
  · show p.length + 1 < p.length + w.length + 1
    omega
  · show p.length + w.length + 1 ≤ (p ++ w ++ r).length + 1
    rw [List.length_append, List.length_append]
    omega
  · have hlength : p.length + w.length + 1 - (p.length + 1) = w.length := by omega
    show ((p ++ w ++ r).drop p.length).take (p.length + w.length + 1 - (p.length + 1)) = w
    rw [hlength, List.append_assoc, List.drop_left, List.take_left]

end Span.Selects

theorem Columns.Fits.append {line : List Char} {columns : Columns} (h : columns.Fits line)
    (r : List Char) : columns.Fits (line ++ r) := by
  refine ⟨h.one_le_start, h.start_lt_stop, ?_⟩
  have hstop := h.stop_le
  rw [List.length_append]
  omega

/-- What stands behind a line does not change what stands between its columns. -/
theorem Columns.Fits.select_append {line : List Char} {columns : Columns} (h : columns.Fits line)
    (r : List Char) : columns.select (line ++ r) = columns.select line := by
  obtain ⟨h₁, h₂, h₃⟩ := h
  rw [select, select, List.drop_append_of_le_length (by omega), List.take_append_of_le_length]
  rw [List.length_drop]
  omega

/-- A span that fits a line selects some word. -/
theorem Span.Fits.exists_selects {line : List Char} {span : Span} (h : span.Fits line) :
    ∃ a w b, line = a ++ (w ++ b) ∧ w ≠ [] ∧
      span = ⟨byteLength a, byteLength a + byteLength w⟩ := by
  obtain ⟨hlt, -, ⟨a, r, hline, ha⟩, ⟨x, b, hline', hx⟩⟩ := h
  rw [hline] at hline'
  rcases List.append_eq_append_iff.1 hline' with ⟨w, rfl, rfl⟩ | ⟨w, rfl, rfl⟩
  · rw [byteLength_append] at hx
    refine ⟨a, w, b, hline, ?_, ?_⟩
    · rintro rfl
      rw [byteLength_nil] at hx
      omega
    · rw [hx, ha]
  · rw [byteLength_append] at ha
    omega

/-! ## Blanked text -/

/-- **A word without a space was not blanked**: it stands at the same byte of the text. -/
theorem exists_append_of_blankQuoted {s a w b : List Char} (h : blankQuoted s = a ++ (w ++ b))
    (hw : w ≠ []) (hspace : ' ' ∉ w) : ∃ p r, s = p ++ (w ++ r) ∧ byteLength p = byteLength a := by
  refine exists_append_of_not_isBlanked h hw fun i hle hlt hblanked => hspace ?_
  have hi : i < byteLength s := by
    rw [← byteLength_blankQuotedFrom false s, ← blankQuoted, h, byteLength_append,
      byteLength_append]
    omega
  have hbyte := getElem?_utf8_blankQuoted hi
  rw [if_pos hblanked, h, utf8_append, utf8_append,
    List.getElem?_append_right (by rwa [length_utf8]), length_utf8,
    List.getElem?_append_left (by rw [length_utf8]; omega)] at hbyte
  exact space_mem_of_spaceByte_mem_utf8 (List.mem_of_getElem? hbyte)

end Text

/-! ## Matches -/

namespace Pattern

variable {p : Pattern} {s : List Char} {hit : Hit}

/-- A match stands in the text that was searched. -/
theorem selects_whole (h : hit ∈ p.scan s) : hit.whole.span.Selects s (hit.lead ++ hit.body) := by
  obtain ⟨-, a, r, hs, hstart⟩ := reads_of_mem_scan h
  exact ⟨a, r, hs, by rw [← hstart]; rfl⟩

/-- So does what it captures. -/
theorem selects_captured (h : hit ∈ p.scan s) : hit.captured.span.Selects s hit.body := by
  obtain ⟨-, a, r, hs, hstart⟩ := reads_of_mem_scan h
  refine ⟨a ++ hit.lead, r, ?_, ?_⟩
  · rw [hs]
    simp only [List.append_assoc]
  · rw [byteLength_append, ← hstart]
    rfl

/-- **Each captured group stands in the text**, where its offsets say; the caret of a page may be
missing, and then the group is the empty text behind the sigil. -/
theorem selects_group (h : hit ∈ p.scan s) {group : Segment} (hgroup : group ∈ p.groups hit) :
    group.span.Selects s group.text := by
  cases p with
  | pageRef =>
    rcases List.mem_cons.1 hgroup with rfl | hgroup
    · obtain ⟨hreads, a, r, hs, hstart⟩ := reads_of_mem_scan h
      obtain ⟨caret, hlead⟩ : ∃ caret, hit.lead = '@' :: caret := by
        rcases hreads.1 with hlead | hlead
        · exact ⟨[], hlead⟩
        · exact ⟨['^'], hlead⟩
      refine ⟨a ++ ['@'], hit.body ++ r, ?_, ?_⟩
      · rw [hs, hlead]
        simp
      · rw [byteLength_append, ← hstart]
        rfl
    · rw [List.mem_singleton.1 hgroup]
      exact selects_captured h
  | clauseWord => exact absurd hgroup List.not_mem_nil
  | _ =>
    rw [List.mem_singleton.1 hgroup]
    exact selects_captured h

end Pattern

/-! ## Words of a line -/

namespace Line

/-- The keyword stands behind the indent. -/
theorem selects_keywordSpan {n : Nat} {raw : List Char} {k : Keyword}
    (h : (ofRaw n raw).keyword? = some k) :
    ((ofRaw n raw).keywordSpan k).Selects (ofRaw n raw).raw k.letters := by
  obtain ⟨r, hr, -⟩ := keyword?_eq_some_iff.1 h
  obtain ⟨lead, t, hraw, -, -, hindent⟩ := exists_raw n raw
  refine ⟨lead, r ++ t, ?_, ?_⟩
  · rw [hraw, hr]
    simp only [List.append_assoc]
  · rw [keywordSpan, hindent]

/-- An argument stands where its offset says. -/
theorem selects_of_mem_arguments {n : Nat} {raw : List Char} {k : Keyword} {a : Segment}
    (h : (ofRaw n raw).keyword? = some k) (ha : a ∈ (ofRaw n raw).arguments k) :
    a.span.Selects (ofRaw n raw).raw a.text ∧ a.text ≠ [] := by
  obtain ⟨p, r, -, hraw, -, hstart, -, hne, -⟩ := exists_append_of_mem_arguments h ha
  exact ⟨⟨p, r, hraw, by rw [Segment.span, Segment.stop, hstart]⟩, hne⟩

/-- **A word without a space in the code of a line stands in the line**, at the same byte. -/
theorem selects_of_code {line : Line} {span : Span} {w : List Char}
    (h : span.Selects line.code w) (hw : w ≠ []) (hspace : ' ' ∉ w) :
    span.Selects line.raw w := by
  obtain ⟨a, b, hcode, rfl⟩ := h
  cases hl : layout? line.raw with
  | some l =>
    obtain ⟨pre, post, hraw, -, hpre⟩ := exists_append_of_layout? hl
    refine ⟨a, b ++ post, ?_, rfl⟩
    rw [hraw, List.append_cons, ← hpre, hcode]
    simp only [List.append_assoc]
  | none =>
    rw [code_of_layout?_eq_none hl, List.append_assoc] at hcode
    obtain ⟨p, r, hstrip, hp⟩ := exists_append_of_blankQuoted hcode hw hspace
    obtain ⟨u, hu⟩ := stripCommentFrom_prefix false line.raw
    refine ⟨p, r ++ u, ?_, by rw [hp]⟩
    rw [← hu, ← stripComment, hstrip]
    simp only [List.append_assoc]

/-- What a search captures stands in the line. -/
theorem selects_captured {line : Line} {p : Pattern} {hit : Hit} (h : hit ∈ line.hits p) :
    hit.captured.span.Selects line.raw hit.body :=
  have hreads := (Pattern.reads_of_mem_scan h).1
  selects_of_code (Pattern.selects_captured h) hreads.body_ne_nil
    (hreads.notMem_body (by decide) (by decide))

/-- So does all that it matches, if its pattern starts with a sigil. -/
theorem selects_whole {line : Line} {p : Pattern} {hit : Hit} (h : hit ∈ line.hits p)
    (hp : p ∉ Pattern.isolated) :
    hit.whole.span.Selects line.raw (hit.lead ++ hit.body) := by
  have hreads := (Pattern.reads_of_mem_scan h).1
  have hspace : ' ' ∉ hit.lead ++ hit.body := by
    rw [List.mem_append, not_or]
    exact ⟨(hreads.notMem_lead hp).1, hreads.notMem_body (by decide) (by decide)⟩
  exact selects_of_code (Pattern.selects_whole h)
    (List.append_ne_nil_of_right_ne_nil _ hreads.body_ne_nil) hspace

end Line

end Gamebook
