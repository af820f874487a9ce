import Gamebook.Proofs.Negation.Line
import Gamebook.Proofs.Place.Local

/-!
Gamebook.Proofs.Negation.Report — what a report says about negations.

One message is about negations, and one check puts it on a line. So the warnings of that kind on a
line of code are one for each negation of the line that negates nothing, in the order of the line,
on the word `mode:not` itself (`diagnostics_danglingNegation`).

Where there is no such warning, each negation of the line has its clause right behind it, and the
reader turns just that clause into its opposite.
-/

namespace Gamebook

open Text

/-- The warning about a negation of nothing, on a line that `indent` characters stand in front of. -/
def CodeLine.danglingWarning (line : CodeLine) (indent : Nat) (w : Segment) : Diagnostic :=
  let column := indent + (textBefore w.start line.source).length + 1
  ⟨line.number, column, column + negation.length,
    "mode:not must be followed by a condition or effect", .warning⟩

/-! ## The marks of one check -/

theorem filter_clauseMarks_negation (line : Line) :
    ((clauseMarks line).filter fun m => m.cause.origin == .negation) = negationMarks line := by
  rw [clauseMarks, List.filter_append, List.filter_append,
    (comesFrom_joinMarks line).filter_eq (· == .negation),
    (comesFrom_placementMarks line).filter_eq (· == .negation),
    (comesFrom_negationMarks line).filter_eq (· == .negation)]
  rfl

/-- What is said about a negation of nothing tells its cause. -/
theorem Cause.message_eq_danglingNegation {c : Cause} {w : List Char} (hw : c.StandsOn w) :
    (c.message == "mode:not must be followed by a condition or effect") =
      (c.origin == .negation) := by
  rw [Bool.eq_iff_iff, beq_iff_eq, beq_iff_eq]
  constructor
  · intro h
    rw [danglingNegation_of_message hw h]
    rfl
  · intro h
    cases c <;> first | rfl | exact absurd h (by simp [origin])

/-- The warnings about negations in a text, line by line. -/
theorem filter_diagnostics_danglingNegation (catalog : Catalog) (text : String) :
    (diagnostics catalog text).filter
        (fun d => d.message == "mode:not must be followed by a condition or effect") =
      (Line.ofText text.toList).flatMap fun line =>
        (if line.isCode then negationMarks line else []).filterMap Mark.diagnostic? := by
  have hpicks : ∀ c : Cause, (c.origin == Origin.negation) = true →
      c.origin ∈ [Origin.join, .placement, .negation] := fun c hc => by simp [eq_of_beq hc]
  rw [filter_diagnostics_of_clauseMarks hpicks (by decide)
    fun c w hw => c.message_eq_danglingNegation hw]
  simp only [filter_clauseMarks_negation]

theorem line_of_mem_negationMarks (target : Line) :
    ∀ d ∈ (if target.isCode then negationMarks target else []).filterMap Mark.diagnostic?,
      d.line = target.number := by
  refine line_of_mem_filterMap_diagnostic? fun m hm => ?_
  exact (isLocal_of_mem_negationMarksIn (List.mem_ite_nil_right.1 hm).2).line_eq

/-! ## One line -/

section

variable {n : Nat} {raw : List Char} {line : CodeLine}

theorem exists_append_of_mem_idleNegations (h : CodeLine.ofRaw? n raw = some line) {w : Segment}
    (hw : w ∈ line.idleNegations) :
    ∃ a b, line.source = a ++ negation ++ b ∧ w.start = byteLength a := by
  obtain ⟨⟨v, i⟩, hmem, rfl⟩ := List.mem_map.1 hw
  obtain ⟨hmem, hidle⟩ := List.mem_filter.1 hmem
  have hindex := List.mem_zipIdx_iff_getElem?.1 hmem
  obtain ⟨r, hr⟩ := exists_append_of_isDangling ((isDangling_iff_idle h hindex 0).trans hidle)
  obtain ⟨a, b, hs, hstart⟩ :=
    CodeLine.exists_append_of_mem_clauseSegments (List.mem_of_getElem? hindex)
  exact ⟨a, r ++ b, by rw [hs, hr]; simp only [List.append_assoc], hstart⟩

/-- The mark on a negation of nothing is its warning. -/
theorem diagnostic?_danglingMark (h : CodeLine.ofRaw? n raw = some line) {w : Segment}
    (hw : w ∈ line.idleNegations) :
    (danglingMark (Line.ofRaw n raw) ((Line.ofRaw n raw).indent + w.start)).diagnostic? =
      some (line.danglingWarning ((Line.ofRaw n raw).raw.takeWhile isBlank).length w) := by
  obtain ⟨a, b, hs, hstart⟩ := exists_append_of_mem_idleNegations h hw
  obtain ⟨-, rfl⟩ := CodeLine.ofRaw?_eq_some_iff.1 h
  replace hs : lineBody raw = a ++ negation ++ b := hs
  obtain ⟨rest, hraw⟩ := exists_append_lineBody (Line.ofRaw n raw).raw
  have hline : (Line.ofRaw n raw).raw =
      (Line.ofRaw n raw).raw.takeWhile isBlank ++ a ++ negation ++ (b ++ rest) := by
    conv_lhs => rw [hraw, Line.lineBody_raw, hs]
    simp only [List.append_assoc]
  have hne : negation ≠ [] := by decide
  have hcolumns := Span.columns?_append ((Line.ofRaw n raw).raw.takeWhile isBlank ++ a)
    (b ++ rest) hne
  rw [← hline, byteLength_append] at hcolumns
  have hbefore : textBefore w.start (lineBody raw) = a := by
    rw [hstart, hs, List.append_assoc]
    exact textBefore_byteLength a (negation ++ b)
  have hplace : ((Line.ofRaw n raw).raw.takeWhile isBlank ++ a).length + negation.length + 1 =
      ((Line.ofRaw n raw).raw.takeWhile isBlank).length + a.length + 1 + negation.length := by
    rw [List.length_append]
    omega
  rw [danglingMark, Mark.diagnostic?, Mark.finding?, hstart]
  show Option.map Finding.diagnostic (Option.map _ (Span.columns? _ ⟨byteLength _ + byteLength a,
    byteLength _ + byteLength a + byteLength negation⟩)) = _
  rw [hcolumns, hplace, List.length_append, CodeLine.danglingWarning, hbefore]
  rfl

/-- A negation among the tokens either has its clause right behind it or is one of nothing. -/
theorem exists_clause_of_idleNegations_eq_nil (h : CodeLine.ofRaw? n raw = some line)
    (hidle : line.idleNegations = []) {front behind : List Token}
    (htokens : line.clauseTokens = front ++ .guard .negate :: behind) :
    ∃ c rest, behind = .guard (.clause c) :: rest := by
  have hnegate : line.clauseTokens[front.length]? = some (.guard .negate) := by
    rw [htokens]
    simp
  have hnext : line.clauseTokens[front.length + 1]? = behind.head? := by
    rw [htokens]
    simp [List.getElem?_append_right, List.head?_eq_getElem?]
  have hlength : front.length < line.clauseSegments.length := by
    have hlt := (List.getElem?_eq_some_iff.1 hnegate).1
    rwa [CodeLine.clauseTokens_eq h, List.length_map] at hlt
  have hnotIdle : negatesNothing line.clauseTokens front.length = false := by
    have hmem : (line.clauseSegments[front.length], front.length) ∈ line.clauseSegments.zipIdx :=
      List.mem_zipIdx_iff_getElem?.2 (List.getElem?_eq_getElem hlength)
    have hall := List.filter_eq_nil_iff.1 (List.map_eq_nil_iff.1 hidle) _ hmem
    rw [Bool.not_eq_true, Bool.or_eq_false_iff] at hall
    exact hall.1
  rw [negatesNothing, hnegate, hnext, beq_self_eq_true, Bool.true_and] at hnotIdle
  cases behind with
  | nil => exact absurd hnotIdle (by simp)
  | cons t rest =>
    cases hclause : t.clause? with
    | none => simp [hclause] at hnotIdle
    | some c => exact ⟨c, rest, by rw [Token.clause?_eq_some_iff.1 hclause]⟩

end

/-! ## The report -/

/-- **The warnings about negations are exact.** On a line of code there is one for each word that is a
negation for the reader and has no clause right behind it, and on a line that is no text line one for
each negation with a marker at its end, in the order of the line. If there is none, each negation of
the line has a clause right behind it, and the reader turns this clause into its opposite: what is
read in front and behind is what it would be alone. -/
theorem diagnostics_danglingNegation (catalog : Catalog) (text : String) {n : Nat}
    {raw : List Char} {line : CodeLine} (hmem : (n, raw) ∈ numberedLines text.toList)
    (hline : CodeLine.ofRaw? n raw = some line) :
    let warnings := (diagnostics catalog text).filter fun d =>
      d.line = n ∧ d.message = "mode:not must be followed by a condition or effect"
    let read := fun tokens : List Token => readGuards false (tokens.filterMap Token.guard?)
    line.clauseTokens = line.clauseSegments.map (fun w => Token.ofWord w.text) ∧
    warnings = line.idleNegations.map
      (line.danglingWarning ((Line.ofRaw n raw).raw.takeWhile isBlank).length) ∧
    (warnings = [] → ∀ front behind, line.clauseTokens = front ++ .guard .negate :: behind →
      ∃ c rest, behind = .guard (.clause c) :: rest ∧
        read line.clauseTokens =
          ((read front).1 ++ [⟨c, true⟩].filterMap WrittenClause.condition? ++ (read rest).1,
            (read front).2 ++ [⟨c, true⟩].filterMap WrittenClause.effect? ++ (read rest).2)) := by
  intro warnings read
  have hwarnings : warnings = line.idleNegations.map
      (line.danglingWarning ((Line.ofRaw n raw).raw.takeWhile isBlank).length) := by
    have hcode : (Line.ofRaw n raw).isCode = true :=
      Line.isCode_iff.2 (CodeLine.ofRaw?_eq_some_iff.1 hline).1
    calc warnings = ((diagnostics catalog text).filter
          (fun d => d.message == "mode:not must be followed by a condition or effect")).filter
            (fun d => d.line = n) := by
          rw [List.filter_filter]
          refine List.filter_congr fun d _ => ?_
          rw [Bool.decide_and]
          rfl
      _ = (negationMarks (Line.ofRaw n raw)).filterMap Mark.diagnostic? := by
          rw [filter_diagnostics_danglingNegation,
            Line.filter_flatMap_ofText line_of_mem_negationMarks hmem, if_pos hcode]
      _ = _ := by
          rw [negationMarks_eq hline, List.filterMap_map]
          exact List.filterMap_eq_map_iff_forall_eq_some.2 fun w hw =>
            diagnostic?_danglingMark hline hw
  refine ⟨CodeLine.clauseTokens_eq hline, hwarnings, fun hnone front behind htokens => ?_⟩
  rw [hwarnings, List.map_eq_nil_iff] at hnone
  obtain ⟨c, rest, rfl⟩ := exists_clause_of_idleNegations_eq_nil hline hnone htokens
  refine ⟨c, rest, rfl, ?_⟩
  show readGuards false (line.clauseTokens.filterMap Token.guard?) = _
  rw [htokens, List.filterMap_append]
  exact readGuards_append_negated c _ _ false

/-- A text line whose last negation is followed by the marker, and a jump with two negations of
nothing. -/
def gateText : String :=
  "DEFINE \"gate\"\nPAGE @a\n mode:not true:$a mode:not> Hi\nTO @a mode:not \"true:\" mode:not-"

/-- The line as the reader sees it. -/
def gateLine (n : Nat) (raw : List Char) : CodeLine :=
  ⟨n, lineBody raw, Token.ofLine (lineBody raw)⟩

theorem idleNegations_gateText :
    let message := "mode:not must be followed by a condition or effect"
    let first := " mode:not true:$a mode:not> Hi".toList
    let second := "TO @a mode:not \"true:\" mode:not-".toList
    ((3, first) ∈ numberedLines gateText.toList ∧ lineBody first ≠ [] ∧
      (gateLine 3 first).idleNegations.map ((gateLine 3 first).danglingWarning 1) =
        [⟨3, 19, 27, message, .warning⟩]) ∧
    (4, second) ∈ numberedLines gateText.toList ∧ lineBody second ≠ [] ∧
      (gateLine 4 second).idleNegations.map ((gateLine 4 second).danglingWarning 0) =
        [⟨4, 7, 15, message, .warning⟩, ⟨4, 24, 32, message, .warning⟩] := by
  decide +kernel

/-- The first negation of the text line has its clause; quoted text is none. -/
theorem diagnostics_danglingNegation_gateText :
    let message := "mode:not must be followed by a condition or effect"
    ((diagnostics .empty gateText).filter fun d => d.line = 3 ∧ d.message = message) =
      [⟨3, 19, 27, message, .warning⟩] ∧
    ((diagnostics .empty gateText).filter fun d => d.line = 4 ∧ d.message = message) =
      [⟨4, 7, 15, message, .warning⟩, ⟨4, 24, 32, message, .warning⟩] := by
  obtain ⟨⟨hthree, hthreeCode, hthreeIdle⟩, hfour, hfourCode, hfourIdle⟩ := idleNegations_gateText
  obtain ⟨-, hfirst, -⟩ := diagnostics_danglingNegation .empty gateText hthree
    (CodeLine.ofRaw?_eq_some_iff.2 ⟨hthreeCode, rfl⟩)
  obtain ⟨-, hsecond, -⟩ := diagnostics_danglingNegation .empty gateText hfour
    (CodeLine.ofRaw?_eq_some_iff.2 ⟨hfourCode, rfl⟩)
  exact ⟨hfirst.trans hthreeIdle, hsecond.trans hfourIdle⟩

end Gamebook
