import Gamebook.Proofs.Place.Mark

/-!
Gamebook.Proofs.Place.Report — every place of a report is a place of the text.

A mark stands on a word of a line, so its span is a stretch of that line and has columns. So no mark
is dropped on the way to the report, and whatever the report says, but for the finding about the
header, it says about a stretch of characters on a line of the text (`places_fit`).
-/

namespace Gamebook

open Text

/-! ## Numbers of lines -/

theorem exists_getElem?_of_mem_numberFrom : ∀ {ls : List (List Char)} {k n : Nat} {raw : List Char},
    (n, raw) ∈ numberFrom k ls → ∃ i, n = k + i ∧ ls[i]? = some raw
  | [], _, _, _, h => by simp [numberFrom] at h
  | l :: ls, k, n, raw, h => by
      rw [numberFrom] at h
      rcases List.mem_cons.1 h with h | h
      · obtain ⟨rfl, rfl⟩ := Prod.mk.inj h
        exact ⟨0, rfl, rfl⟩
      · obtain ⟨i, rfl, hi⟩ := exists_getElem?_of_mem_numberFrom h
        exact ⟨i + 1, by omega, hi⟩

/-- The number of a line says where it stands among the lines, counted from 1. -/
theorem getElem?_of_mem_numberedLines {text raw : List Char} {n : Nat}
    (h : (n, raw) ∈ numberedLines text) : 1 ≤ n ∧ (lines text)[n - 1]? = some raw := by
  obtain ⟨i, rfl, hi⟩ := exists_getElem?_of_mem_numberFrom h
  refine ⟨by omega, ?_⟩
  rwa [Nat.add_sub_cancel_left]

/-! ## Diagnostics -/

/-- A diagnostic is about the header, or it points at a word of a line that goes with its cause. -/
theorem exists_of_mem_diagnostics {catalog : Catalog} {text : String} {d : Diagnostic}
    (h : d ∈ diagnostics catalog text) :
    d.message = Cause.noHeader.message ∨
      ∃ raw w cause, 1 ≤ d.line ∧ (lines text.toList)[d.line - 1]? = some raw ∧
        Columns.Fits (chop '\r' raw) ⟨d.startColumn, d.endColumn⟩ ∧
          Columns.select (chop '\r' raw) ⟨d.startColumn, d.endColumn⟩ = w ∧
            Cause.StandsOn cause w ∧ d.message = cause.message ∧ d.severity = cause.severity := by
  obtain ⟨f, hf, rfl⟩ := List.mem_map.1 h
  rcases mem_findings.1 hf with hf | ⟨m, hm, hfinding⟩
  · left
    exact congrArg Cause.message (cause_of_mem_headerFindings hf)
  · right
    obtain ⟨honWord, n, raw, hnumbered, hline⟩ := exists_line_of_mem_allMarks hm
    obtain ⟨columns, w, hcolumns, hfits, hselect, hstands⟩ := honWord.exists_finding?
    rw [hfinding, Option.some.injEq] at hcolumns
    rw [hline] at hfits hselect hcolumns
    obtain ⟨hn, hraw⟩ := getElem?_of_mem_numberedLines hnumbered
    rw [hcolumns]
    exact ⟨raw, w, m.cause, hn, hraw, hfits, hselect, hstands, rfl, rfl⟩

/-- The diagnostic that a mark stands for. -/
def Mark.diagnostic? (m : Mark) : Option Diagnostic := m.finding?.map Finding.diagnostic

/-- **Diagnostics picked by what they say are the marks with these causes**, if what is said tells the
cause. No mark is lost on the way. -/
theorem filter_diagnostics_of_message (tells : String → Bool) (picks : Cause → Bool)
    (hheader : tells Cause.noHeader.message = false)
    (h : ∀ (c : Cause) (w : List Char), c.StandsOn w → tells c.message = picks c) (catalog : Catalog)
    (text : String) :
    (diagnostics catalog text).filter (fun d => tells d.message) =
      ((allMarks catalog (Line.ofText text.toList)).filter fun m => picks m.cause).filterMap
        Mark.diagnostic? := by
  have hnone : (headerFindings (Line.ofText text.toList)).filter
      (fun f => tells f.cause.message) = [] := by
    refine List.filter_eq_nil_iff.2 fun f hf => ?_
    rw [cause_of_mem_headerFindings hf, hheader]
    exact Bool.false_ne_true
  have hmarks : (allMarks catalog (Line.ofText text.toList)).filter
      (fun m => tells m.cause.message) =
        (allMarks catalog (Line.ofText text.toList)).filter fun m => picks m.cause := by
    refine List.filter_congr fun m hm => ?_
    obtain ⟨⟨w, -, -, hw⟩, -⟩ := exists_line_of_mem_allMarks hm
    exact h m.cause w hw
  have hfindings : (findings catalog text).filter (fun f => tells f.cause.message) =
      ((allMarks catalog (Line.ofText text.toList)).filter fun m => picks m.cause).filterMap
        Mark.finding? := by
    rw [findings, List.filter_append, hnone, List.nil_append,
      filter_filterMap_finding? fun c => tells c.message, hmarks]
  rw [diagnostics, List.filter_map]
  show ((findings catalog text).filter fun f => tells f.cause.message).map _ = _
  rw [hfindings, List.map_filterMap]
  rfl

/-- **No place is outside of the text, and nothing is dropped.** All marks fit their lines and stand
for findings, and each diagnostic but the one about the header is about a stretch of a line, which
is not empty and does not go on behind the line. -/
theorem places_fit (catalog : Catalog) (text : String) :
    (∀ m ∈ allMarks catalog (Line.ofText text.toList), m.line ∈ Line.ofText text.toList ∧
      m.span.Fits m.line.raw ∧ m.finding?.isSome = true) ∧
    (diagnostics catalog text).length = (headerFindings (Line.ofText text.toList)).length +
      (allMarks catalog (Line.ofText text.toList)).length ∧
    ∀ d ∈ diagnostics catalog text, d.message ≠ "line 1 must start with DEFINE" →
      1 ≤ d.line ∧ d.line ≤ (lines text.toList).length ∧
        ∃ raw, (lines text.toList)[d.line - 1]? = some raw ∧ 1 ≤ d.startColumn ∧
          d.startColumn < d.endColumn ∧ d.endColumn ≤ (chop '\r' raw).length + 1 := by
  have hmarks : ∀ m ∈ allMarks catalog (Line.ofText text.toList), m.line ∈ Line.ofText text.toList ∧
      m.span.Fits m.line.raw ∧ m.finding?.isSome = true := by
    intro m hm
    obtain ⟨honWord, n, raw, hnumbered, hline⟩ := exists_line_of_mem_allMarks hm
    obtain ⟨columns, w, hfinding, -, -, -⟩ := honWord.exists_finding?
    obtain ⟨v, hne, hselects, -⟩ := honWord
    refine ⟨Line.mem_ofText.2 ⟨n, raw, hnumbered, hline⟩, hselects.fits hne, ?_⟩
    rw [hfinding]
    rfl
  refine ⟨hmarks, ?_, ?_⟩
  · have hall : ((allMarks catalog (Line.ofText text.toList)).filterMap Mark.finding?).length =
        (allMarks catalog (Line.ofText text.toList)).length := by
      rw [List.length_filterMap_eq_countP]
      exact List.countP_eq_length.2 fun m hm => (hmarks m hm).2.2
    rw [diagnostics, List.length_map, findings, List.length_append, hall]
  · intro d hd hheader
    rcases exists_of_mem_diagnostics hd with hmessage | ⟨raw, w, cause, hline, hraw, hfits, -⟩
    · exact absurd hmessage hheader
    · obtain ⟨hbound, -⟩ := List.getElem?_eq_some_iff.1 hraw
      exact ⟨hline, by omega, raw, hraw, hfits.one_le_start, hfits.start_lt_stop, hfits.stop_le⟩

/-- An option behind no menu, on a line that is indented and holds a character of two bytes. -/
def wegText : String := "DEFINE \"t\"\nPAGE @a\n  IS \"é\" @weg"

/-- The mark on the page: bytes count from 0, and `é` takes two of them. -/
def wegMark : Mark := ⟨Line.ofRaw 3 "  IS \"é\" @weg".toList, ⟨10, 14⟩, .undeclared .page "weg"⟩

theorem diagnostics_wegText : wegMark ∈ allMarks .empty (Line.ofText wegText.toList) ∧
    diagnostics .empty wegText = [⟨3, 3, 5, "IS must follow CHOICE or IS", .error⟩,
      ⟨3, 10, 14, "undefined page: weg", .error⟩] := by
  decide +kernel

/-- The mark fits the third line, and so do the columns of the diagnostic that it stands for. -/
theorem places_fit_wegText :
    (wegMark ∈ allMarks .empty (Line.ofText wegText.toList) ∧
      wegMark.span.Fits wegMark.line.raw ∧ wegMark.finding?.isSome = true) ∧
    ⟨3, 10, 14, "undefined page: weg", .error⟩ ∈ diagnostics .empty wegText ∧
      3 ≤ (lines wegText.toList).length ∧
        ∃ raw, (lines wegText.toList)[2]? = some raw ∧ 14 ≤ (chop '\r' raw).length + 1 := by
  obtain ⟨hmark, hdiagnostics⟩ := diagnostics_wegText
  have hpage : ⟨3, 10, 14, "undefined page: weg", .error⟩ ∈ diagnostics .empty wegText := by
    rw [hdiagnostics]
    simp
  obtain ⟨hmarks, -, hplaces⟩ := places_fit .empty wegText
  obtain ⟨-, hfits, hfinding⟩ := hmarks _ hmark
  obtain ⟨-, hline, raw, hraw, -, -, hstop⟩ := hplaces _ hpage (by decide)
  exact ⟨⟨hmark, hfits, hfinding⟩, hpage, hline, raw, hraw, hstop⟩

end Gamebook
