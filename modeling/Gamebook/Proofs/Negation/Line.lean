import Gamebook.Proofs.Check.TextLine
import Gamebook.Proofs.Negation.Word
import Gamebook.Proofs.Place.Mark
import Gamebook.Proofs.Script.Guard
import Gamebook.Proofs.Spacing.Padding

/-!
Gamebook.Proofs.Negation.Line — the negations of a line that negate nothing.

The reader takes some words of a line for clauses: those in front of the marker of a text line, and
all words of any other line (`CodeLine.clauseSegments`, with their tokens `CodeLine.clauseTokens`).
A negation among them negates nothing if the token right behind it is no clause
(`CodeLine.idleNegations`).

The checks cut the line anew, from the line as it stands and with its quoted text blanked, or up to
and with its marker. They still find the negations of the reader, with the same words behind them
(`negationMarks_eq_clauseSegments`), so they mark what negates nothing (`negationMarks_eq`).
-/

namespace Gamebook

open Text

/-! ## The clause words of the reader -/

namespace CodeLine

/-- The words of the line that may be clauses, with their places in it. -/
def clauseSegments (line : CodeLine) : List Segment :=
  match layout? line.source with
  | some l => l.clauses
  | none => segments line.source

/-- The tokens of these words: those that a text line holds, or all tokens of any other line. -/
def clauseTokens (line : CodeLine) : List Token :=
  match line.tokens with
  | [.message _ guards _] => guards.map Token.guard
  | tokens => tokens

end CodeLine

theorem IsClauseWord.exists_guard {w : List Char} (h : IsClauseWord w) :
    ∃ g, Guard.ofWord? w = some g := by
  simp only [Guard.ofWord?_eq_some_iff]
  rcases h with hneg | ⟨k, flags, hw, -⟩
  · exact ⟨_, Or.inl ⟨hneg, rfl⟩⟩
  · exact ⟨_, Or.inr ⟨k, flags, hw, rfl⟩⟩

/-- The clauses in front of a marker are clause-shaped words, and stand in the line. -/
theorem exists_append_of_mem_clauses {s : List Char} {l : Layout} (h : layout? s = some l)
    {w : Segment} (hw : w ∈ l.clauses) :
    IsClauseWord w.text ∧ ∃ a b, s = a ++ w.text ++ b ∧ w.start = byteLength a := by
  obtain ⟨pre, post, rfl, hrun, -, -⟩ := layout?_eq_some_iff.1 h
  obtain ⟨a, b, rfl, hstart, -, hclause⟩ := hrun.exists_append hw
  exact ⟨hclause, a, b ++ l.kind.marker :: post, by simp, by rw [hstart, Nat.zero_add]⟩

section

variable {n : Nat} {raw : List Char} {line : CodeLine}

/-- The tokens go with the words. -/
theorem CodeLine.clauseTokens_eq (h : CodeLine.ofRaw? n raw = some line) :
    line.clauseTokens = line.clauseSegments.map fun w => Token.ofWord w.text := by
  obtain ⟨-, rfl⟩ := CodeLine.ofRaw?_eq_some_iff.1 h
  unfold clauseTokens clauseSegments
  cases hl : layout? (lineBody raw) with
  | some l =>
    rw [Token.ofLine, hl]
    show (l.clauses.filterMap fun w => Guard.ofWord? w.text).map Token.guard = _
    rw [List.map_filterMap]
    refine List.filterMap_eq_map_iff_forall_eq_some.2 fun w hw => ?_
    obtain ⟨g, hg⟩ := (exists_append_of_mem_clauses hl hw).1.exists_guard
    rw [hg, Option.map_some, Token.ofWord_eq_guard_iff.2 hg]
  | none =>
    have htokens : Token.ofLine (lineBody raw) =
        (segments (lineBody raw)).map fun w => Token.ofWord w.text := by
      rw [Token.ofLine, hl]
    rw [htokens]
    show (match (segments (lineBody raw)).map fun w => Token.ofWord w.text with
      | [.message _ guards _] => guards.map Token.guard
      | tokens => tokens) = _
    split
    next kind guards text hmessage =>
      obtain ⟨w, -, hw⟩ := List.mem_map.1 (hmessage ▸ List.mem_singleton_self _)
      exact absurd hw (Token.ofWord_ne_message _ _ _ _)
    next => rfl

/-- Each of these words stands in the line at its offset. -/
theorem CodeLine.exists_append_of_mem_clauseSegments {w : Segment}
    (hw : w ∈ line.clauseSegments) :
    ∃ a b, line.source = a ++ w.text ++ b ∧ w.start = byteLength a := by
  unfold clauseSegments at hw
  split at hw
  next l hl => exact (exists_append_of_mem_clauses hl hw).2
  next =>
    obtain ⟨a, b, hs, hstart, -⟩ := exists_append_of_mem_segmentsAt hw
    exact ⟨a, b, hs, by rw [hstart, Nat.zero_add]⟩

/-! ## The words of the checks -/

/-- The code of a line that is no text line: blanks, the words of the reader, and blanks again. -/
theorem Line.exists_code_of_lineBody (h : layout? (lineBody raw) = none) :
    ∃ u, AllBlank u ∧ (Line.ofRaw n raw).code =
      blankQuoted ((Line.ofRaw n raw).raw.takeWhile Text.isBlank ++ lineBody raw) ++ u := by
  have hrel := layout?_lineBody (Line.ofRaw n raw).raw
  obtain ⟨u, hu, hstrip⟩ := exists_stripComment_eq_append (Line.ofRaw n raw).raw
  rw [Line.lineBody_raw] at hrel hstrip
  have hlayout : layout? (Line.ofRaw n raw).raw = none := by
    rw [h] at hrel
    cases hl : layout? (Line.ofRaw n raw).raw with
    | none => rfl
    | some l =>
      rw [hl] at hrel
      cases hrel
  refine ⟨_, allBlank_blankQuotedFrom hu
    (quotedAt false ((Line.ofRaw n raw).raw.takeWhile Text.isBlank ++ lineBody raw)), ?_⟩
  rw [code_of_layout?_eq_none hlayout, hstrip, blankQuoted, blankQuotedFrom_append, blankQuoted]

/-- The code of a text line: blanks, the clauses of the reader, and the marker. -/
theorem Line.exists_code_of_layout? {m : Layout} (h : layout? (lineBody raw) = some m) :
    ∃ pre, (Line.ofRaw n raw).code = pre ++ [m.kind.marker] ∧
      ClauseRun 0 pre (m.clauses.map (Segment.shift (Line.ofRaw n raw).indent)) := by
  obtain ⟨rest, hraw⟩ := exists_append_lineBody (Line.ofRaw n raw).raw
  rw [Line.lineBody_raw] at hraw
  obtain ⟨l, hl, hindented⟩ :=
    exists_layout?_append (allBlank_takeWhile (Line.ofRaw n raw).raw) h rest
  rw [← hraw] at hl
  obtain ⟨pre, post, -, hrun, hcode⟩ := exists_append_of_layout? hl
  rw [hindented.clauses] at hrun
  rw [hindented.kind] at hcode
  exact ⟨pre, hcode, hrun⟩

/-- **The checks look for negations among the clause words of the reader.** -/
theorem negationMarks_eq_clauseSegments (h : CodeLine.ofRaw? n raw = some line) :
    negationMarks (Line.ofRaw n raw) = negationMarksIn (Line.ofRaw n raw)
      (line.clauseSegments.map (Segment.shift (Line.ofRaw n raw).indent)) := by
  obtain ⟨-, rfl⟩ := CodeLine.ofRaw?_eq_some_iff.1 h
  rw [negationMarks, CodeLine.clauseSegments]
  cases hl : layout? (lineBody raw) with
  | some m =>
    obtain ⟨pre, hcode, hrun⟩ := Line.exists_code_of_layout? (n := n) hl
    rw [hcode]
    exact (negationMarksIn_concat_marker _ hrun m.kind).2
  | none =>
    obtain ⟨u, hu, hcode⟩ := Line.exists_code_of_lineBody (n := n) hl
    rw [hcode, negationMarksIn_segments_append _ _ hu, segments_eq, segmentsAt_blankQuoted,
      negationMarksIn_blanked, segmentsAt_append_blanks (allBlank_takeWhile _), Nat.zero_add,
      ← Nat.add_zero (byteLength _), segmentsAt_shift]
    rfl

end

/-! ## Negations of nothing -/

/-- At this index stands a negation, and the token right behind it is no clause. -/
def negatesNothing (tokens : List Token) (i : Nat) : Bool :=
  tokens[i]? == some (.guard .negate) && (tokens[i + 1]?.bind Token.clause?).isNone

/-- The words of the line that are negations of nothing, in their order: those that the reader takes
for negations, with no clause right behind; and on a line that is no text line, a negation with a
marker at its end, which means nothing to the reader. -/
def CodeLine.idleNegations (line : CodeLine) : List Segment :=
  (line.clauseSegments.zipIdx.filter fun (w, i) =>
    negatesNothing line.clauseTokens i ||
      (layout? line.source).isNone && isMarkedNegation w.text).map Prod.fst

/-- The mark on a negation of nothing. -/
def danglingMark (target : Line) (start : Nat) : Mark :=
  ⟨target, ⟨start, start + byteLength negation⟩, .danglingNegation⟩

/-- The walk down the words, as a list of places. -/
theorem negationMarksIn_eq (target : Line) (ws : List Segment) :
    negationMarksIn target ws =
      (ws.zipIdx.filter fun (w, i) => isDangling w.text (ws.drop (i + 1))).map
        fun (w, _) => danglingMark target w.start := by
  induction ws with
  | nil => rfl
  | cons w ws ih =>
    rw [negationMarksIn, ih, List.zipIdx_cons', List.filter_cons, List.filter_map]
    cases hdangling : isDangling w.text ws with
    | true => simp [hdangling, danglingMark, Function.comp_def]
    | false => simp [hdangling, Function.comp_def]

section

variable {n : Nat} {raw : List Char} {line : CodeLine}

/-- A word is a negation of nothing for the checks exactly when it is one for the reader. -/
theorem isDangling_iff_idle (h : CodeLine.ofRaw? n raw = some line) {w : Segment} {i : Nat}
    (hw : line.clauseSegments[i]? = some w) (k : Nat) :
    isDangling w.text ((line.clauseSegments.map (Segment.shift k)).drop (i + 1)) =
      (negatesNothing line.clauseTokens i ||
        (layout? line.source).isNone && isMarkedNegation w.text) := by
  have hfollows : clauseFollows ((line.clauseSegments.map (Segment.shift k)).drop (i + 1)) =
      line.clauseSegments[i + 1]?.any fun v => isClauseWord v.text := by
    rw [clauseFollows, List.head?_drop, List.getElem?_map, Option.any_map]
    rfl
  have hnegation : (some (Token.ofWord w.text) == some (Token.guard .negate)) =
      (w.text == negation) := by
    rw [Bool.eq_iff_iff, beq_iff_eq, beq_iff_eq, Option.some.injEq, Token.ofWord_eq_guard_iff,
      Guard.ofWord?_eq_some_iff]
    simp
  have hnext : (line.clauseTokens[i + 1]?.bind Token.clause?).isNone =
      !(line.clauseSegments[i + 1]?.any fun v => isClauseWord v.text) := by
    rw [CodeLine.clauseTokens_eq h, List.getElem?_map]
    cases line.clauseSegments[i + 1]? with
    | none => rfl
    | some v => simp [isClauseWord_eq]
  have hmarked : isMarkedNegation w.text = true → (layout? line.source).isNone = true := by
    intro hmark
    cases hl : layout? line.source with
    | none => rfl
    | some l =>
      have hclause : IsClauseWord w.text := by
        refine (exists_append_of_mem_clauses hl ?_).1
        have hmem := List.mem_of_getElem? hw
        rwa [CodeLine.clauseSegments, hl] at hmem
      obtain ⟨g, hg⟩ := hclause.exists_guard
      have hgt : Guard.ofWord? (negation ++ ['>']) = none := by decide
      have hminus : Guard.ofWord? (negation ++ ['-']) = none := by decide
      simp only [isMarkedNegation, Bool.or_eq_true, beq_iff_eq] at hmark
      rcases hmark with hmark | hmark
      · rw [hmark, hgt] at hg
        exact absurd hg (by simp)
      · rw [hmark, hminus] at hg
        exact absurd hg (by simp)
  rw [isDangling_eq_clauseFollows, hfollows, negatesNothing, hnext, CodeLine.clauseTokens_eq h,
    List.getElem?_map, hw, Option.map_some, hnegation]
  cases hm : isMarkedNegation w.text with
  | false => rw [Bool.and_false]
  | true => rw [hmarked hm, Bool.and_true]

/-- **The checks mark the negations that negate nothing for the reader**, and no others. -/
theorem negationMarks_eq (h : CodeLine.ofRaw? n raw = some line) :
    negationMarks (Line.ofRaw n raw) =
      line.idleNegations.map fun w =>
        danglingMark (Line.ofRaw n raw) ((Line.ofRaw n raw).indent + w.start) := by
  rw [negationMarks_eq_clauseSegments h, negationMarksIn_eq, CodeLine.idleNegations,
    List.zipIdx_map, List.filter_map, List.map_map, List.map_map]
  have hfilter : (line.clauseSegments.zipIdx.filter fun (w, i) =>
      isDangling w.text ((line.clauseSegments.map
        (Segment.shift (Line.ofRaw n raw).indent)).drop (i + 1))) =
      line.clauseSegments.zipIdx.filter fun (w, i) => negatesNothing line.clauseTokens i ||
        (layout? line.source).isNone && isMarkedNegation w.text := by
    refine List.filter_congr ?_
    rintro ⟨w, i⟩ hmem
    exact isDangling_iff_idle h (List.mem_zipIdx_iff_getElem?.1 hmem) _
  rw [← hfilter]
  rfl

end

end Gamebook
