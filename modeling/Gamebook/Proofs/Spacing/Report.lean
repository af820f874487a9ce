import Gamebook.Proofs.Place.Mark
import Gamebook.Proofs.Spacing.Padding
import Gamebook.Proofs.Spacing.Reading

/-!
Gamebook.Proofs.Spacing.Report — blanks at the ends of lines, and lines without code, do not count.

Two stretches of lines correspond if each line of the second one is the line of the first one with
blanks behind it, under a number that depends on the old one (`forall₂_padded`). Reading takes the same
from both (`codeLinesOf_padded`), and since a mark fits the line that it was put on, it has the same
columns on the line with the blanks (`Mark.Moved.finding?`).

* `report_of_padded`: blanks are put at the ends of lines, such as a carriage return. Nothing changes.
* `report_of_insert`: a line that is blank or a comment is put in behind the first line. Nothing
  changes but the numbers of the lines behind it.
-/

namespace Gamebook

open Text

/-- The line with blanks behind it. -/
def IsPadding (raw raw' : List Char) : Prop := ∃ t, AllBlank t ∧ raw' = raw ++ t

theorem IsPadding.refl (raw : List Char) : IsPadding raw raw :=
  ⟨[], by simp [AllBlank], (List.append_nil raw).symm⟩

/-- A carriage return at the end may be cut off before or behind the blanks. -/
theorem IsPadding.chop {raw raw' : List Char} (h : IsPadding raw raw') :
    IsPadding (Text.chop '\r' raw) (Text.chop '\r' raw') := by
  obtain ⟨t, ht, rfl⟩ := h
  have hcr : AllBlank ['\r'] := by simp [AllBlank]; decide
  cases t using List.reverseRecOn with
  | nil =>
    rw [List.append_nil]
    exact .refl _
  | append_singleton t c =>
    have htail : AllBlank t := fun d hd => ht d (List.mem_append_left _ hd)
    -- What is left of the blanks, and what was cut off the line, are blanks behind the line.
    have hcut : ∃ u, AllBlank u ∧ Text.chop '\r' (raw ++ (t ++ [c])) = raw ++ u := by
      rw [← List.append_assoc]
      rcases exists_chop_append '\r' (raw ++ t ++ [c]) with h | h
      · exact ⟨t ++ [c], ht, by rw [← h, List.append_assoc]⟩
      · exact ⟨t, htail, (List.append_inj_left' h rfl).symm⟩
    obtain ⟨u, hu, hu'⟩ := hcut
    rw [hu']
    rcases exists_chop_append '\r' raw with h | h
    · exact ⟨u, hu, by rw [← h]⟩
    · refine ⟨['\r'] ++ u, fun d hd => ?_, ?_⟩
      · rcases List.mem_append.1 hd with hd | hd
        · exact hcr d hd
        · exact hu d hd
      · rw [← List.append_assoc, ← h]

theorem lineBody_of_isPadding {raw raw' : List Char} (h : IsPadding raw raw') :
    lineBody raw' = lineBody raw := by
  obtain ⟨t, ht, rfl⟩ := h
  rw [lineBody, lineBody, trim_append_of_allBlank _ ht]

/-! ## Corresponding lines -/

section

variable {f : Nat → Nat} {raws raws' : List (List Char)}

/-- The numbers behind the first line. -/
theorem number_succ {n n' k : Nat} (hf : ∀ i < k + 1, f (n + i) = n' + i) :
    ∀ i < k, f (n + 1 + i) = n' + 1 + i := by
  intro i hi
  have hnext := hf (i + 1) (by omega)
  rw [Nat.add_assoc, Nat.add_assoc, Nat.add_comm 1 i]
  exact hnext

/-- **For the checks**, the lines correspond. -/
theorem forall₂_padded (h : List.Forall₂ IsPadding raws raws') {n n' : Nat}
    (hf : ∀ i < raws.length, f (n + i) = n' + i) :
    List.Forall₂ (Line.Padded f) ((numberFrom n raws).map fun (n, raw) => .ofRaw n raw)
      ((numberFrom n' raws').map fun (n, raw) => .ofRaw n raw) := by
  induction h generalizing n n' with
  | nil => exact .nil
  | cons hraw _ ih =>
    exact .cons ⟨(hf 0 (by simp)).symm, hraw.chop⟩ (ih (number_succ hf))

/-- **For the reader**, the lines are the same under other numbers. -/
theorem codeLinesOf_padded (h : List.Forall₂ IsPadding raws raws') {n n' : Nat}
    (hf : ∀ i < raws.length, f (n + i) = n' + i) :
    codeLinesOf (numberFrom n' raws') =
      (codeLinesOf (numberFrom n raws)).map (CodeLine.renumber f) := by
  induction h generalizing n n' with
  | nil => rfl
  | @cons raw raw' raws raws' hraw _ ih =>
    have hnumber : f n = n' := hf 0 (by simp)
    have hline : CodeLine.ofRaw? n' raw' = (CodeLine.ofRaw? n raw).map (CodeLine.renumber f) := by
      rw [CodeLine.ofRaw?, CodeLine.ofRaw?, lineBody_of_isPadding hraw, ← hnumber]
      split <;> rfl
    have hrest := ih (number_succ hf)
    rw [codeLinesOf, codeLinesOf] at hrest ⊢
    rw [numberFrom, numberFrom, List.filterMap_cons, List.filterMap_cons, hrest]
    simp only [hline]
    cases CodeLine.ofRaw? n raw <;> rfl

end

theorem forall₂_filter_isCode {f : Nat → Nat} {lines lines' : List Line}
    (h : List.Forall₂ (Line.Padded f) lines lines') :
    List.Forall₂ (Line.Padded f) (lines.filter Line.isCode) (lines'.filter Line.isCode) :=
  List.rel_filter (fun _ _ hline => by simp only [hline.sameView.isCode]) h

theorem head?_trimmed_of_padded {f : Nat → Nat} {lines lines' : List Line}
    (h : List.Forall₂ (Line.Padded f) lines lines') :
    lines'.head?.map Line.trimmed = lines.head?.map Line.trimmed := by
  cases h with
  | nil => rfl
  | cons hline _ => exact congrArg some hline.sameView.trimmed

/-! ## Diagnostics of corresponding lines -/

/-- The finding, on a line with another number. -/
def Finding.renumber (f : Nat → Nat) (finding : Finding) : Finding :=
  { finding with line := f finding.line }

/-- The diagnostic, for a line with another number. -/
def Diagnostic.renumber (f : Nat → Nat) (d : Diagnostic) : Diagnostic :=
  { d with line := f d.line }

/-- **A mark that is moved to the padded line** has the same columns there. -/
theorem Mark.Moved.finding? {f : Nat → Nat} {m m' : Mark} (h : m.Moved (Line.Padded f) m')
    (hfits : m.span.Fits m.line.raw) : m'.finding? = m.finding?.map (Finding.renumber f) := by
  obtain ⟨t, -, hraw⟩ := h.line.raw
  have hplace : ∀ n ≤ byteLength m.line.raw, SamePlace m'.line.raw m.line.raw n n :=
    fun n hn => by rw [hraw, SamePlace, indexOf?_append_of_le t hn]
  have hstop := hfits.stop_le
  have hstart := hfits.start_lt_stop
  have hcolumns : m.span.columns? m'.line.raw = m.span.columns? m.line.raw :=
    SamePlace.columns? (hplace _ (Nat.le_trans (Nat.le_of_lt hstart) hstop)) (hplace _ hstop)
  rw [Mark.finding?, Mark.finding?, h.span, hcolumns, h.cause, h.line.number, Option.map_map]
  rfl

theorem filterMap_finding?_of_moved {f : Nat → Nat} {ms ms' : List Mark}
    (h : List.Forall₂ (Mark.Moved (Line.Padded f)) ms ms')
    (hfits : ∀ m ∈ ms, m.span.Fits m.line.raw) :
    ms'.filterMap Mark.finding? = (ms.filterMap Mark.finding?).map (Finding.renumber f) := by
  induction h with
  | nil => rfl
  | @cons m m' ms ms' hm _ ih =>
    rw [List.forall_mem_cons] at hfits
    rw [List.filterMap_cons, List.filterMap_cons, hm.finding? hfits.1, ih hfits.2]
    cases m.finding? <;> rfl

/-- **Texts whose lines of code correspond** have the same diagnostics, on lines that correspond. -/
theorem diagnostics_of_padded {f : Nat → Nat} (hfirst : f 1 = 1) {text text' : String}
    (hheader : (Line.ofText text'.toList).head?.map Line.trimmed =
      (Line.ofText text.toList).head?.map Line.trimmed)
    (h : List.Forall₂ (Line.Padded f) ((Line.ofText text.toList).filter Line.isCode)
      ((Line.ofText text'.toList).filter Line.isCode)) (catalog : Catalog) :
    diagnostics catalog text' = (diagnostics catalog text).map (Diagnostic.renumber f) := by
  have hheaders : headerFindings (Line.ofText text'.toList) =
      (headerFindings (Line.ofText text.toList)).map (Finding.renumber f) := by
    cases hlines : Line.ofText text.toList with
    | nil =>
      rw [hlines, List.head?_nil, Option.map_none, Option.map_eq_none_iff,
        List.head?_eq_none_iff] at hheader
      simp [hheader, headerFindings, Finding.renumber, hfirst]
    | cons line lines =>
      rw [hlines, List.head?_cons, Option.map_some] at hheader
      obtain ⟨line', hline', htrimmed⟩ := Option.map_eq_some_iff.1 hheader
      obtain ⟨lines', hlines'⟩ := List.head?_eq_some_iff.1 hline'
      rw [hlines', headerFindings, headerFindings, htrimmed]
      split <;> simp [Finding.renumber, hfirst]
  have hmarks := filterMap_finding?_of_moved (moved_allMarks Line.Padded.sameView h catalog)
    fun m hm => by
      obtain ⟨⟨w, hne, hselects, -⟩, -⟩ := exists_line_of_mem_allMarks hm
      exact hselects.fits hne
  rw [diagnostics, diagnostics, findings, findings, hheaders, hmarks, ← List.map_append,
    List.map_map, List.map_map]
  rfl

/-! ## Blanks at the ends of lines -/

/-- **Blanks at the ends of lines do not count.** Texts whose lines differ in such blanks only, like
carriage returns, are read as the same script, and they have the same diagnostics. -/
theorem report_of_padded (catalog : Catalog) {text text' : String}
    (h : List.Forall₂ (fun raw raw' => ∃ t, AllBlank t ∧ raw' = raw ++ t) (lines text.toList)
      (lines text'.toList)) :
    Script.read text' = Script.read text ∧
      diagnostics catalog text' = diagnostics catalog text := by
  have hid : ∀ i < (lines text.toList).length, id (1 + i) = 1 + i := fun _ _ => rfl
  constructor
  · rw [Script.read_renumber id (codeLinesOf_padded h hid)]
    cases Script.read text with
    | error e => rfl
    | ok script => exact congrArg Except.ok script.renumber_id
  · have hpadded : List.Forall₂ (Line.Padded id) (Line.ofText text.toList)
        (Line.ofText text'.toList) := forall₂_padded h hid
    rw [diagnostics_of_padded rfl (head?_trimmed_of_padded hpadded)
      (forall₂_filter_isCode hpadded) catalog]
    exact List.map_id _

/-- A catalog with one command, which expects one of two texts. -/
def knockCatalog : Catalog := ⟨[⟨"KNOCK", [⟨"times", .text, true, ["one", "two"]⟩]⟩]⟩

/-- A text with a text that is not expected, a negation of nothing, and a literal that is not
closed. -/
def knockText : String :=
  "DEFINE \"t\"\nPAGE @a\nEXEC #KNOCK \"six\" // not yet\nmode:not\nTO @b \"open"

/-- The same text with blanks at the ends of its lines. -/
def knockTextPadded : String :=
  "DEFINE \"t\"\r\nPAGE @a \t\r\nEXEC #KNOCK \"six\" // not yet\r\nmode:not\u3000\nTO @b \"open  \r"

theorem lines_knockText :
    lines knockText.toList = ["DEFINE \"t\"".toList, "PAGE @a".toList,
      "EXEC #KNOCK \"six\" // not yet".toList, "mode:not".toList, "TO @b \"open".toList] ∧
    lines knockTextPadded.toList = ["DEFINE \"t\"".toList ++ ['\r'],
      "PAGE @a".toList ++ [' ', '\t', '\r'], "EXEC #KNOCK \"six\" // not yet".toList ++ ['\r'],
      "mode:not".toList ++ ['\u3000'], "TO @b \"open".toList ++ [' ', ' ', '\r']] ∧
    diagnostics knockCatalog knockText =
      [⟨3, 13, 18, "\"six\" is not a preset for times (KNOCK)", .hint⟩,
        ⟨4, 1, 9, "mode:not must be followed by a condition or effect", .warning⟩,
        ⟨5, 7, 12, "argument 2 of TO is malformed", .error⟩,
        ⟨5, 4, 6, "undefined page: b", .error⟩] := by
  decide +kernel

/-- Nothing is said about the blanks, and nothing moves. -/
theorem report_of_padded_knockText :
    List.Forall₂ (fun raw raw' => ∃ t, AllBlank t ∧ raw' = raw ++ t) (lines knockText.toList)
        (lines knockTextPadded.toList) ∧
      Script.read knockTextPadded = Script.read knockText ∧
      diagnostics knockCatalog knockTextPadded =
        [⟨3, 13, 18, "\"six\" is not a preset for times (KNOCK)", .hint⟩,
          ⟨4, 1, 9, "mode:not must be followed by a condition or effect", .warning⟩,
          ⟨5, 7, 12, "argument 2 of TO is malformed", .error⟩,
          ⟨5, 4, 6, "undefined page: b", .error⟩] := by
  obtain ⟨hlines, hpadded, hdiagnostics⟩ := lines_knockText
  have hblank : ∀ c ∈ [' ', '\t', '\r', '\u3000'], isBlank c = true := by decide
  have hall : ∀ {t : List Char}, t ⊆ [' ', '\t', '\r', '\u3000'] → AllBlank t :=
    fun ht c hc => hblank c (ht hc)
  have h : List.Forall₂ (fun raw raw' => ∃ t, AllBlank t ∧ raw' = raw ++ t)
      (lines knockText.toList) (lines knockTextPadded.toList) := by
    rw [hlines, hpadded]
    refine .cons ⟨_, hall ?_, rfl⟩ (.cons ⟨_, hall ?_, rfl⟩ (.cons ⟨_, hall ?_, rfl⟩
      (.cons ⟨_, hall ?_, rfl⟩ (.cons ⟨_, hall ?_, rfl⟩ .nil))))
    all_goals simp
  obtain ⟨hread, hreport⟩ := report_of_padded knockCatalog h
  exact ⟨h, hread, hreport.trans hdiagnostics⟩

/-! ## Lines without code -/

/-- Where line `n` has gone, if one more line is put in behind the first `k` lines. -/
def lineBehind (k n : Nat) : Nat := if n ≤ k then n else n + 1

/-- **Lines without code do not count.** A line that is blank or a comment is put in, and not as the
first line. The diagnostics and the broken lines behind it lie one line further down, and nothing
else changes. -/
theorem report_of_insert (catalog : Catalog) {text text' : String} {before after : List (List Char)}
    {raw : List Char} (hlines : lines text.toList = before ++ after)
    (hlines' : lines text'.toList = before ++ raw :: after) (hbefore : before ≠ [])
    (hraw : trim raw = [] ∨ startsWith ['/', '/'] (trim raw) = true) :
    Script.read text' =
        (Script.read text).map (Script.renumber (lineBehind before.length)) ∧
      diagnostics catalog text' =
        (diagnostics catalog text).map (Diagnostic.renumber (lineBehind before.length)) := by
  have hcode : (Line.ofRaw (1 + before.length) raw).isCode = false := by
    rw [Line.isCode, Line.trimmed_ofRaw]
    rcases hraw with hraw | hraw <;> simp [hraw]
  have hfront : ∀ i < before.length, lineBehind before.length (1 + i) = 1 + i :=
    fun i hi => if_pos (by omega)
  have hback : ∀ i < after.length,
      lineBehind before.length (1 + before.length + i) = 1 + before.length + 1 + i := by
    intro i _
    rw [lineBehind, if_neg (by omega)]
    omega
  have hsame : ∀ raws, List.Forall₂ IsPadding raws raws :=
    fun raws => List.forall₂_same.2 fun raw _ => .refl raw
  constructor
  · refine Script.read_renumber _ ?_
    have hnone : CodeLine.ofRaw? (1 + before.length) raw = none :=
      CodeLine.ofRaw?_eq_none_iff.2 hcode
    show codeLinesOf (numberFrom 1 (lines text'.toList)) =
      (codeLinesOf (numberFrom 1 (lines text.toList))).map _
    rw [hlines, hlines', codeLinesOf_numberFrom_append, codeLinesOf_numberFrom_append,
      List.map_append, ← codeLinesOf_padded (hsame before) hfront,
      ← codeLinesOf_padded (hsame after) hback]
    exact congrArg _ (codeLinesOf_numberFrom_cons_none hnone after)
  · refine diagnostics_of_padded ?_ ?_ ?_ catalog
    · exact hfront 0 (List.length_pos_iff.2 hbefore)
    · obtain ⟨first, rest, rfl⟩ := List.exists_cons_of_ne_nil hbefore
      rw [Line.ofText, Line.ofText, numberedLines, numberedLines, hlines, hlines']
      rfl
    · rw [Line.ofText, Line.ofText, numberedLines, numberedLines, hlines, hlines',
        numberFrom_append, numberFrom_append, List.map_append, List.map_append, List.filter_append,
        List.filter_append]
      refine List.rel_append (forall₂_filter_isCode (forall₂_padded (hsame before) hfront)) ?_
      rw [numberFrom, List.map_cons, List.filter_cons_of_neg (by simp [hcode])]
      exact forall₂_filter_isCode (forall₂_padded (hsame after) hback)

/-- A text with a menu whose last option leads nowhere, and with a jump that leads nowhere. -/
def roomText : String := "DEFINE \"t\"\nPAGE @a\nCHOICE\nIS \"x\" @a\nIS /SAME @c\nTO"

/-- The same text with a comment between the options. -/
def roomTextNoted : String :=
  "DEFINE \"t\"\nPAGE @a\nCHOICE\nIS \"x\" @a\n  // \"PAGE @c\nIS /SAME @c\nTO"

/-- The script, with its broken line at the place `n`. -/
def roomScript (n : Nat) : Script :=
  ⟨"t", ["a", "c"], [], [⟨"a", [.choice none
    [⟨some "x", false, false, ⟨.page "a", [], []⟩⟩, ⟨some "x", false, false, ⟨.page "c", [], []⟩⟩],
      .broken n "TO"]⟩]⟩

theorem read_roomText :
    Script.read roomText = .ok (roomScript 6) ∧
      diagnostics .empty roomText =
        [⟨5, 10, 12, "undefined page: c", .error⟩, ⟨6, 1, 3, "TO requires argument 1", .error⟩] ∧
      lines roomText.toList = ["DEFINE \"t\"".toList, "PAGE @a".toList, "CHOICE".toList,
        "IS \"x\" @a".toList] ++ ["IS /SAME @c".toList, "TO".toList] ∧
      lines roomTextNoted.toList = ["DEFINE \"t\"".toList, "PAGE @a".toList, "CHOICE".toList,
        "IS \"x\" @a".toList] ++ "  // \"PAGE @c".toList :: ["IS /SAME @c".toList, "TO".toList] ∧
      startsWith ['/', '/'] (trim "  // \"PAGE @c".toList) = true := by
  decide +kernel

/-- The second option still repeats the first one, and what is said lies one line further down. -/
theorem report_of_insert_roomText :
    startsWith ['/', '/'] (trim "  // \"PAGE @c".toList) = true ∧
      Script.read roomTextNoted = .ok (roomScript 7) ∧
      diagnostics .empty roomTextNoted =
        [⟨6, 10, 12, "undefined page: c", .error⟩, ⟨7, 1, 3, "TO requires argument 1", .error⟩] := by
  obtain ⟨hread, hdiagnostics, hlines, hnoted, hcomment⟩ := read_roomText
  obtain ⟨hread', hreport⟩ :=
    report_of_insert .empty hlines hnoted (by simp) (Or.inr hcomment)
  rw [hread] at hread'
  rw [hdiagnostics] at hreport
  exact ⟨hcomment, hread', hreport⟩

end Gamebook
