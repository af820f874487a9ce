import Gamebook.Proofs.Negation.Line
import Gamebook.Proofs.Pattern.Clause
import Gamebook.Proofs.Place.Local
import Gamebook.Proofs.Script.Meaning

/-!
Gamebook.Proofs.Soundness.Effect — the effects that a text line loses are reported.

A line of the story has conditions but no effects. The reader takes the clauses of a text line from
its layout and drops the effects; the checks never look at these clauses, but search the line up to
and with its marker for the openings of effects. The search finds one opening for each clause that
is an effect (`CodeLine.length_hits_effectClause`), and no mark of the check is left out of the
report, so there is one warning for each effect that is dropped (`effects_reported`).
-/

namespace Gamebook

open Text

/-! ## Clauses of a message -/

/-- The clause is an effect. -/
def ClauseKind.isEffect : ClauseKind → Bool
  | effect _ => true
  | condition _ => false

theorem ClauseKind.mem_effects_iff {k : ClauseKind} : k ∈ effects ↔ k.isEffect = true := by
  rcases k with p | p <;> cases p <;> decide

/-- The clause that the word is. -/
def Guard.clause? : Guard → Option Clause
  | clause c => some c
  | negate => none

/-- The clauses among the words, in their order. -/
def clausesOf (guards : List Guard) : List Clause := guards.filterMap Guard.clause?

/-- The clauses as they are written are the clauses. -/
theorem map_clause_writtenClauses_guards (guards : List Guard) :
    (writtenClauses (guards.map Token.guard)).map WrittenClause.clause = clausesOf guards := by
  rw [map_clause_writtenClauses, List.filterMap_map]
  refine List.filterMap_congr fun g _ => ?_
  cases g <;> rfl

/-- The reader makes conditions and effects of them as they are written. -/
theorem readGuards_eq_written (guards : List Guard) :
    readGuards false guards =
      ((writtenClauses (guards.map Token.guard)).filterMap WrittenClause.condition?,
        (writtenClauses (guards.map Token.guard)).filterMap WrittenClause.effect?) := by
  have hguards : (guards.map Token.guard).filterMap Token.guard? = guards := by
    rw [List.filterMap_map]
    exact List.filterMap_some
  have hread := readGuards_behind [] (guards.map Token.guard)
  rw [hguards] at hread
  exact hread

/-- A clause is read as a condition unless it is an effect. -/
theorem WrittenClause.map_some_filterMap_condition? (ws : List WrittenClause) :
    (ws.filterMap condition?).map some =
      (ws.filter fun w => !w.clause.kind.isEffect).map condition? := by
  induction ws with
  | nil => rfl
  | cons w ws ih =>
    obtain ⟨⟨kind, flags⟩, negated⟩ := w
    cases kind with
    | condition p => exact congrArg (_ :: ·) ih
    | effect p => exact ih

/-- A clause is read as an effect if it is one. -/
theorem WrittenClause.length_filterMap_effect? (ws : List WrittenClause) :
    (ws.filterMap effect?).length =
      ((ws.map clause).filter fun c => c.kind.isEffect).length := by
  induction ws with
  | nil => rfl
  | cons w ws ih =>
    obtain ⟨⟨kind, flags⟩, negated⟩ := w
    cases kind with
    | condition p => exact ih
    | effect p => exact congrArg (· + 1) ih

/-! ## What the search finds -/

/-- A clause-shaped word opens as an effect exactly if the reader takes it for an effect. -/
theorem Text.Segment.isSome_opening?_effects {w : Segment} (hw : IsClauseWord w.text) :
    (w.opening? ClauseKind.effects).isSome =
      ((Guard.ofWord? w.text).bind Guard.clause?).any fun c => c.kind.isEffect := by
  obtain ⟨start, text⟩ := w
  rcases hw with rfl | ⟨k, flags, rfl, -⟩
  · have hopening := clauseOpening?_negation ClauseKind.effects []
    rw [List.append_nil] at hopening
    rw [Segment.opening?, hopening, Guard.ofWord?_negation]
    rfl
  · rw [Segment.opening?, clauseOpening?_opening,
      Guard.ofWord?_eq_some_iff.2 (Or.inr ⟨k, flags, rfl, rfl⟩)]
    by_cases hk : k.isEffect = true
    · rw [if_pos (ClauseKind.mem_effects_iff.2 hk)]
      exact hk.symm
    · rw [if_neg (mt ClauseKind.mem_effects_iff.1 hk)]
      exact ((Bool.not_eq_true _).mp hk).symm

/-- So the openings of effects are as many as the effects. -/
theorem length_filterMap_opening? {ws : List Segment} (hws : ∀ w ∈ ws, IsClauseWord w.text) :
    (ws.filterMap (Segment.opening? ClauseKind.effects)).length =
      ((clausesOf (ws.filterMap fun w => Guard.ofWord? w.text)).filter
        fun c => c.kind.isEffect).length := by
  induction ws with
  | nil => rfl
  | cons w ws ih =>
    have hrest := ih fun v hv => hws v (List.mem_cons_of_mem _ hv)
    have hhere := Segment.isSome_opening?_effects (hws w List.mem_cons_self)
    obtain ⟨g, hg⟩ := (hws w List.mem_cons_self).exists_guard
    rw [hg, Option.bind_some] at hhere
    rw [List.filterMap_cons, List.filterMap_cons, hg, clausesOf, List.filterMap_cons]
    cases hopening : w.opening? ClauseKind.effects <;> cases hclause : g.clause? <;>
      simp_all [clausesOf]

section

variable {n : Nat} {raw : List Char} {line : CodeLine} {kind : MessageKind} {guards : List Guard}
  {shown : String}

/-- A line of code is a message if it has a layout; its clauses are those of the layout. -/
theorem CodeLine.exists_layout?_of_tokens (hline : CodeLine.ofRaw? n raw = some line)
    (htokens : line.tokens = [.message kind guards shown]) :
    ∃ m, layout? (lineBody raw) = some m ∧
      guards = m.clauses.filterMap fun w => Guard.ofWord? w.text := by
  obtain ⟨-, rfl⟩ := CodeLine.ofRaw?_eq_some_iff.1 hline
  replace htokens : Token.ofLine (lineBody raw) = _ := htokens
  rw [Token.ofLine] at htokens
  split at htokens
  next m hm =>
    simp only [List.cons.injEq, Token.message.injEq] at htokens
    exact ⟨m, hm, htokens.1.2.1.symm⟩
  next =>
    obtain ⟨w, -, hw⟩ := List.mem_map.1 (htokens ▸ List.mem_singleton_self _)
    exact absurd hw (Token.ofWord_ne_message _ _ _ _)

/-- **The text lines of the checks are the messages of the reader.** -/
theorem Line.isText_iff : (Line.ofRaw n raw).isText = true ↔
    ∃ line kind guards shown, CodeLine.ofRaw? n raw = some line ∧
      line.tokens = [.message kind guards shown] := by
  have hrel := layout?_lineBody (Line.ofRaw n raw).raw
  rw [Line.lineBody_raw] at hrel
  rw [Line.isText]
  constructor
  · intro htext
    cases hbody : layout? (lineBody raw) with
    | none =>
      rw [hbody] at hrel
      cases hl : layout? (Line.ofRaw n raw).raw with
      | none => simp [hl] at htext
      | some l =>
        rw [hl] at hrel
        cases hrel
    | some m =>
      have hne : lineBody raw ≠ [] := by
        intro hnil
        obtain ⟨pre, post, hs, -⟩ := layout?_eq_some_iff.1 hbody
        rw [hnil] at hs
        exact absurd hs (by simp)
      have htokens : Token.ofLine (lineBody raw) =
          [.message m.kind (m.clauses.filterMap fun w => Guard.ofWord? w.text)
            (String.ofList (textFrom m.textStart (lineBody raw)))] := by
        rw [Token.ofLine, hbody]
      exact ⟨_, _, _, _, CodeLine.ofRaw?_eq_some_iff.2 ⟨hne, rfl⟩, htokens⟩
  · rintro ⟨line, kind, guards, shown, hline, htokens⟩
    obtain ⟨m, hm, -⟩ := CodeLine.exists_layout?_of_tokens hline htokens
    rw [hm] at hrel
    cases hl : layout? (Line.ofRaw n raw).raw with
    | some l => rfl
    | none =>
      rw [hl] at hrel
      cases hrel

/-- A text line leads nowhere. -/
theorem Line.isTransition_of_isText {line : Line} (h : line.isText = true) :
    line.isTransition = false := by
  cases hk : line.keyword? with
  | none =>
    rw [isTransition, hk]
    rfl
  | some k =>
    rw [isText, layout?_raw_of_keyword? hk] at h
    exact absurd h (by decide)

/-- **The checks find as many effects as the message has.** -/
theorem CodeLine.length_hits_effectClause (hline : CodeLine.ofRaw? n raw = some line)
    (htokens : line.tokens = [.message kind guards shown]) :
    ((Line.ofRaw n raw).hits .effectClause).length =
      ((clausesOf guards).filter fun c => c.kind.isEffect).length := by
  obtain ⟨m, hm, rfl⟩ := CodeLine.exists_layout?_of_tokens hline htokens
  obtain ⟨pre, hcode, hrun⟩ := Line.exists_code_of_layout? (n := n) hm
  have hscan : (Pattern.effectClause.scanFrom true 0 0 (pre ++ [m.kind.marker])).map Hit.captured =
      (m.clauses.map (Segment.shift (Line.ofRaw n raw).indent)).filterMap
        (Segment.opening? ClauseKind.effects) :=
    hrun.map_captured_scanFrom (fun _ _ => rfl) m.kind (Or.inl rfl)
  have hwords : ∀ w ∈ m.clauses.map (Segment.shift (Line.ofRaw n raw).indent),
      IsClauseWord w.text := by
    intro w hw
    obtain ⟨-, -, -, -, -, hclause⟩ := hrun.exists_append hw
    exact hclause
  rw [Line.hits, hcode, Pattern.scan, ← List.length_map (f := Hit.captured), hscan,
    length_filterMap_opening? hwords, List.filterMap_map]
  rfl

end

/-! ## What the report says -/

/-- What is said about an effect out of place tells its cause. -/
theorem Cause.message_eq_misplacedEffect {c : Cause} {w : List Char} (hw : c.StandsOn w) :
    (c.message == "effects are only valid on IS/TO lines") = (c == .misplacedEffect) := by
  rw [Bool.eq_iff_iff, beq_iff_eq, beq_iff_eq]
  constructor
  · intro h
    have hinitial : c.initial? = some 'e' := by
      refine initial?_eq_some hw ?_ (by decide) (by decide)
      rw [h]
      exact head?_literal _ _
    cases c with
    | misplacedEffect => rfl
    | joinedEffects => exact absurd h (by decide)
    | _ => exact absurd hinitial (by simp)
  · rintro rfl
    rfl

/-- On a line that leads nowhere, all effects that are found are marked. -/
theorem filter_clauseMarks_misplacedEffect {line : Line} (h : line.isTransition = false) :
    ((clauseMarks line).filter fun m => m.cause == .misplacedEffect) =
      (line.hits .effectClause).map fun hit => line.markCaptured hit .misplacedEffect := by
  have hother : ∀ {origin : Origin} {ms : List Mark}, ComesFrom origin ms → origin ≠ .placement →
      (ms.filter fun m => m.cause == .misplacedEffect) = [] := by
    intro origin ms hms horigin
    refine List.filter_eq_nil_iff.2 fun m hm hcause => horigin ?_
    rw [← hms m hm, eq_of_beq hcause]
    rfl
  have hcause : ∀ {p : Prop} [Decidable p] {hits : List Hit} {f : Hit → Mark},
      (∀ hit, ((f hit).cause == .misplacedEffect) = false) →
        ((if p then [] else hits.map f).filter fun m => m.cause == .misplacedEffect) = [] := by
    intro p _ hits f hf
    split
    · rfl
    · rw [List.filter_map, List.filter_eq_nil_iff.2 fun hit _ => by simp [hf hit], List.map_nil]
  rw [clauseMarks, List.filter_append, List.filter_append, hother (comesFrom_joinMarks line) (by decide),
    hother (comesFrom_negationMarks line) (by decide), List.nil_append, List.append_nil,
    placementMarks, List.filter_append, List.filter_append, List.filter_append,
    hcause fun _ => rfl, hcause fun _ => rfl, hcause fun _ => rfl, List.nil_append, List.nil_append,
    List.nil_append, h, if_neg Bool.false_ne_true, List.filter_eq_self]
  intro m hm
  obtain ⟨hit, -, rfl⟩ := List.mem_map.1 hm
  rfl

/-- **The warnings about effects on a line that leads nowhere** are as many as the effects found. -/
theorem length_filter_diagnostics_misplacedEffect (catalog : Catalog) {text : String} {n : Nat}
    {raw : List Char} (hmem : (n, raw) ∈ numberedLines text.toList)
    (hcode : (Line.ofRaw n raw).isCode = true) (h : (Line.ofRaw n raw).isTransition = false) :
    ((diagnostics catalog text).filter fun d => d.line = n ∧ d.severity = .warning ∧
      d.message = "effects are only valid on IS/TO lines").length =
        ((Line.ofRaw n raw).hits .effectClause).length := by
  have hpicks : ∀ c : Cause, (c == Cause.misplacedEffect) = true →
      c.origin ∈ [Origin.join, .placement, .negation] := by
    intro c hc
    rw [eq_of_beq hc]
    decide
  have hline := filter_diagnostics_on_line hpicks (by decide)
    (fun c w hw => Cause.message_eq_misplacedEffect hw) catalog hmem
  rw [if_pos hcode, filter_clauseMarks_misplacedEffect h] at hline
  -- Each of these diagnostics is a warning, so asking for warnings drops none.
  have hwarning : ((diagnostics catalog text).filter fun d => d.line = n ∧ d.severity = .warning ∧
      d.message = "effects are only valid on IS/TO lines") =
        (diagnostics catalog text).filter fun d => d.line = n ∧
          d.message = "effects are only valid on IS/TO lines" := by
    refine List.filter_congr fun d hd => decide_eq_decide.2 ?_
    refine and_congr_right fun hn => and_iff_right_of_imp fun hmessage => ?_
    have hmem : d ∈ (diagnostics catalog text).filter fun d => d.line = n ∧
        d.message = "effects are only valid on IS/TO lines" :=
      List.mem_filter.2 ⟨hd, decide_eq_true ⟨hn, hmessage⟩⟩
    rw [hline] at hmem
    obtain ⟨m, hm, -, hseverity⟩ := exists_of_mem_filterMap_diagnostic? hmem
    obtain ⟨hit, -, rfl⟩ := List.mem_map.1 hm
    exact hseverity
  have honWord : ∀ m ∈ ((Line.ofRaw n raw).hits .effectClause).map fun hit =>
      (Line.ofRaw n raw).markCaptured hit .misplacedEffect, m.OnWord := by
    intro m hm
    have hplacement : m ∈ placementMarks (Line.ofRaw n raw) := by
      refine List.mem_append_right _ ?_
      rwa [h, if_neg Bool.false_ne_true]
    exact onWord_of_mem_placementMarks hplacement
  rw [hwarning, hline, length_filterMap_diagnostic? honWord, List.length_map]

/-- **The effects that a text line loses are all reported.** The text lines of the checks are the
messages of the reader. On each there are as many warnings about effects as the message has clauses
that are effects, which are just those that the reader drops; each other clause is read as one
condition of the line, in the order of the clauses. -/
theorem effects_reported (catalog : Catalog) (text : String) {n : Nat} {raw : List Char}
    (hmem : (n, raw) ∈ numberedLines text.toList) :
    ((Line.ofRaw n raw).isText = true ↔ ∃ line kind guards shown,
      CodeLine.ofRaw? n raw = some line ∧ line.tokens = [.message kind guards shown]) ∧
    ∀ line kind guards shown, CodeLine.ofRaw? n raw = some line →
      line.tokens = [.message kind guards shown] →
        let warnings := (diagnostics catalog text).filter fun d => d.line = n ∧
          d.severity = .warning ∧ d.message = "effects are only valid on IS/TO lines"
        let written := writtenClauses (guards.map Token.guard)
        written.map WrittenClause.clause = clausesOf guards ∧
        warnings.length = ((clausesOf guards).filter fun c => c.kind.isEffect).length ∧
        warnings.length = (readGuards false guards).2.length ∧
        ∃ conditions, line.command = .textLine kind conditions shown ∧
          conditions.map some =
            (written.filter fun w => !w.clause.kind.isEffect).map WrittenClause.condition? := by
  refine ⟨Line.isText_iff, fun line kind guards shown hline htokens => ?_⟩
  intro warnings written
  have hcode : (Line.ofRaw n raw).isCode = true :=
    Line.isCode_iff.2 (CodeLine.ofRaw?_eq_some_iff.1 hline).1
  have htransition : (Line.ofRaw n raw).isTransition = false :=
    Line.isTransition_of_isText (Line.isText_iff.2 ⟨line, kind, guards, shown, hline, htokens⟩)
  have hwritten : written.map WrittenClause.clause = clausesOf guards :=
    map_clause_writtenClauses_guards guards
  have hread : readGuards false guards =
      (written.filterMap WrittenClause.condition?, written.filterMap WrittenClause.effect?) :=
    readGuards_eq_written guards
  have hcount : warnings.length = ((clausesOf guards).filter fun c => c.kind.isEffect).length :=
    (length_filter_diagnostics_misplacedEffect catalog hmem hcode htransition).trans
      (CodeLine.length_hits_effectClause hline htokens)
  refine ⟨hwritten, hcount, ?_, (readGuards false guards).1, ?_, ?_⟩
  · rw [hcount, hread, WrittenClause.length_filterMap_effect?, hwritten]
  · rw [CodeLine.command, htokens]
  · rw [hread, WrittenClause.map_some_filterMap_condition?]

/-- A text line with two effects around a condition under a negation. Its marker is the hyphen behind
the flag `to`, so what looks like a third effect is text. -/
def driftLine : List Char := " to-true:$a mode:not true:$b to-false:$c,to-true:$d- Hi".toList

/-- A text with this line. -/
def driftText : String := "DEFINE \"d\"\nPAGE @p\n" ++ String.ofList driftLine

/-- The line as the reader sees it. -/
def driftCode : CodeLine := ⟨3, lineBody driftLine, Token.ofLine (lineBody driftLine)⟩

/-- The clauses of the line. -/
def driftGuards : List Guard :=
  [.clause ⟨.effect .setTrue, ["a"]⟩, .negate, .clause ⟨.condition .allTrue, ["b"]⟩,
    .clause ⟨.effect .setFalse, ["c", "to"]⟩]

theorem tokens_driftCode : (3, driftLine) ∈ numberedLines driftText.toList ∧
    lineBody driftLine ≠ [] ∧ driftCode.tokens = [.message .append driftGuards "true:$d- Hi"] := by
  decide +kernel

/-- Both effects are reported, and what is left is the opposite of the condition. -/
theorem effects_reported_driftText :
    (3, driftLine) ∈ numberedLines driftText.toList ∧
    ((diagnostics .empty driftText).filter fun d => d.line = 3 ∧ d.severity = .warning ∧
      d.message = "effects are only valid on IS/TO lines").length = 2 ∧
    driftCode.command = .textLine .append [⟨.anyFalse, ["b"]⟩] "true:$d- Hi" := by
  obtain ⟨hmem, hne, htokens⟩ := tokens_driftCode
  obtain ⟨-, hcount, -, conditions, hcommand, hconditions⟩ :=
    (effects_reported .empty driftText hmem).2 driftCode _ _ _
      (CodeLine.ofRaw?_eq_some_iff.2 ⟨hne, rfl⟩) htokens
  have hread : conditions = [⟨.anyFalse, ["b"]⟩] :=
    List.map_injective_iff.2 (Option.some_injective _) (hconditions.trans rfl)
  rw [hread] at hcommand
  exact ⟨hmem, hcount.trans rfl, hcommand⟩

end Gamebook
