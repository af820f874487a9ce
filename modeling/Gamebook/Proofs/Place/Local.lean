import Gamebook.Proofs.Check.Origin
import Gamebook.Proofs.Place.Message

/-!
Gamebook.Proofs.Place.Local — what a report says about the clauses of one line.

Three checks look at a line for itself, without its keyword's arguments, the lines around it or the
names of the text: for clauses that are joined, for words that are out of place, and for negations of
nothing (`clauseMarks`). Where a message tells which of their causes it is about, the diagnostics with
this message are the marks of these checks, line by line (`filter_diagnostics_of_clauseMarks`), and
those on one line are the marks on that line (`filter_diagnostics_on_line`).
-/

namespace Gamebook

open Text

/-- The marks of the checks that look at a line for itself. -/
def clauseMarks (line : Line) : List Mark :=
  joinMarks line ++ placementMarks line ++ negationMarks line

theorem mem_codeMarks_of_mem_clauseMarks (d : Declared) {line : Line} {m : Mark}
    (h : m ∈ clauseMarks line) : m ∈ codeMarks d line := by
  simp only [clauseMarks, codeMarks, List.mem_append, or_assoc] at h ⊢
  exact Or.inr h

/-- A diagnostic among those of some marks tells the line of its mark and how bad its cause is. -/
theorem exists_of_mem_filterMap_diagnostic? {ms : List Mark} {d : Diagnostic}
    (h : d ∈ ms.filterMap Mark.diagnostic?) :
    ∃ m ∈ ms, d.line = m.line.number ∧ d.severity = m.cause.severity := by
  obtain ⟨m, hm, hdiagnostic⟩ := List.mem_filterMap.1 h
  obtain ⟨f, hf, rfl⟩ := Option.map_eq_some_iff.1 hdiagnostic
  obtain ⟨hcause, hline⟩ := Mark.cause_of_finding? hf
  exact ⟨m, hm, hline, congrArg Cause.severity hcause⟩

theorem line_of_mem_filterMap_diagnostic? {target : Line} {ms : List Mark}
    (hms : ∀ m ∈ ms, m.line = target) :
    ∀ d ∈ ms.filterMap Mark.diagnostic?, d.line = target.number := by
  intro d hd
  obtain ⟨m, hm, hline, -⟩ := exists_of_mem_filterMap_diagnostic? hd
  rw [hline, hms m hm]

/-- Marks on words all have columns, so each of them is one diagnostic. -/
theorem length_filterMap_diagnostic? {ms : List Mark} (hms : ∀ m ∈ ms, m.OnWord) :
    (ms.filterMap Mark.diagnostic?).length = ms.length := by
  rw [List.length_filterMap_eq_countP]
  refine List.countP_eq_length.2 fun m hm => ?_
  obtain ⟨columns, w, hfinding, -⟩ := (hms m hm).exists_finding?
  rw [Mark.diagnostic?, hfinding]
  rfl

section

variable {picks : Cause → Bool}
  (hpicks : ∀ c, picks c = true → c.origin ∈ [Origin.join, .placement, .negation])
include hpicks

/-- Of the marks on a line, those with such causes come from these checks. -/
theorem filter_lineMarks_of_origin (d : Declared) (s : CheckState) (line : Line) :
    ((lineMarks d s line).filter fun m => picks m.cause) =
      if line.isCode then (clauseMarks line).filter fun m => picks m.cause else [] := by
  have hkeyword : ((keywordMarks d s line).filter fun m => picks m.cause) = [] := by
    refine List.filter_eq_nil_iff.2 fun m hm hpick => ?_
    have horigin := hpicks m.cause hpick
    have hkeyword := origin_of_mem_keywordMarks hm
    revert horigin hkeyword
    cases m.cause.origin <;> decide
  have hreference : ((referenceMarks d line).filter fun m => picks m.cause) = [] := by
    refine List.filter_eq_nil_iff.2 fun m hm hpick => ?_
    have horigin := hpicks m.cause hpick
    rcases origin_of_mem_referenceMarks hm with h | ⟨h, -⟩ <;> simp [h] at horigin
  rw [lineMarks]
  split
  · rw [List.filter_append, hkeyword, List.nil_append, codeMarks, List.append_assoc,
      List.append_assoc, List.filter_append, hreference, List.nil_append, ← List.append_assoc]
    rfl
  · rfl

/-- The same for the marks on all lines. -/
theorem filter_allMarks_of_origin (catalog : Catalog) (lines : List Line) :
    ((allMarks catalog lines).filter fun m => picks m.cause) =
      lines.flatMap fun line =>
        if line.isCode then (clauseMarks line).filter fun m => picks m.cause else [] := by
  have hother : ∀ {origin : Origin} {ms : List Mark}, ComesFrom origin ms →
      origin ∉ [Origin.join, .placement, .negation] →
        (ms.filter fun m => picks m.cause) = [] := by
    intro origin ms hms horigin
    refine List.filter_eq_nil_iff.2 fun m hm hpick => horigin ?_
    rw [← hms m hm]
    exact hpicks m.cause hpick
  rw [allMarks, List.filter_append, List.filter_append,
    hother (comesFrom_repeatedHeaderMarks lines) (by decide),
    hother (comesFrom_duplicateMarks _ _) (by decide),
    filter_marksFrom_eq_flatMap fun s line => filter_lineMarks_of_origin hpicks _ s line]
  rfl

variable {message : String} (hheader : Cause.noHeader.message ≠ message)
  (hmessage : ∀ (c : Cause) (w : List Char), c.StandsOn w → (c.message == message) = picks c)
include hheader hmessage

/-- **The diagnostics with a message that tells its cause**, line by line. -/
theorem filter_diagnostics_of_clauseMarks (catalog : Catalog) (text : String) :
    (diagnostics catalog text).filter (fun d => d.message == message) =
      (Line.ofText text.toList).flatMap fun line =>
        (if line.isCode then (clauseMarks line).filter fun m => picks m.cause
          else []).filterMap Mark.diagnostic? := by
  rw [filter_diagnostics_of_message (fun m => m == message) picks (beq_false_of_ne hheader)
    hmessage, filter_allMarks_of_origin hpicks, List.filterMap_flatMap]

/-- **The diagnostics with this message on one line** are the marks on the line. -/
theorem filter_diagnostics_on_line (catalog : Catalog) {text : String} {n : Nat} {raw : List Char}
    (hmem : (n, raw) ∈ numberedLines text.toList) :
    (diagnostics catalog text).filter (fun d => d.line = n ∧ d.message = message) =
      (if (Line.ofRaw n raw).isCode then
        (clauseMarks (Line.ofRaw n raw)).filter fun m => picks m.cause else []).filterMap
          Mark.diagnostic? := by
  have hsplit : (diagnostics catalog text).filter (fun d => d.line = n ∧ d.message = message) =
      ((diagnostics catalog text).filter fun d => d.message == message).filter
        fun d => d.line = n := by
    rw [List.filter_filter]
    refine List.filter_congr fun d _ => ?_
    rw [Bool.decide_and]
    rfl
  rw [hsplit, filter_diagnostics_of_clauseMarks hpicks hheader hmessage]
  refine Line.filter_flatMap_ofText (fun line => line_of_mem_filterMap_diagnostic? ?_) hmem
  intro m hm
  obtain ⟨hm, -⟩ := List.mem_filter.1 (List.mem_ite_nil_right.1 hm).2
  exact (isLocal_of_mem_codeMarks (mem_codeMarks_of_mem_clauseMarks (.ofLines .empty []) hm)).line_eq

end

end Gamebook
