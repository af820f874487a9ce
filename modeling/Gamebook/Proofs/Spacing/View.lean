import Gamebook.Proofs.Check.Line
import Gamebook.Proofs.Check.Report
import Mathlib.Data.List.Forall2

/-!
Gamebook.Proofs.Spacing.View — lines that look the same to the checks.

What a check puts on a line hangs on a few answers: how the line opens, its arguments, its matches and
its negations. Two lines with the same answers (`Line.SameView`) get the same marks, each on its own
line (`Mark.onLine`). One lemma for each check says so; `lineMarks_onLine` puts them together.

Lines that are no code get no marks, declare nothing and change nothing (`allMarks_filter_isCode`). So
the marks of two texts correspond as soon as their lines of code do (`moved_allMarks`).
-/

namespace Gamebook

open Text

/-- Whatever the checks ask of the lines, both give the same answer. They may differ in their numbers,
and in what the checks do not look at. -/
structure Line.SameView (line line' : Line) : Prop where
  /-- How the line opens, and its arguments. -/
  trimmed : line'.trimmed = line.trimmed
  /-- Where the line opens. -/
  indent : line.isCode = true → line'.indent = line.indent
  /-- Whether it is a text line. -/
  isText : line'.isText = line.isText
  /-- Its matches. -/
  hits : ∀ p, line'.hits p = line.hits p
  /-- Its negations. -/
  negations : ∀ target, negationMarksIn target (segments line'.code) =
    negationMarksIn target (segments line.code)

/-- The mark, put on another line. -/
def Mark.onLine (line : Line) (m : Mark) : Mark := { m with line := line }

section

variable {line line' : Line} {k : Keyword}

/-! ## Answers -/

namespace Line.SameView

theorem keyword? (h : line.SameView line') : line'.keyword? = line.keyword? := by
  rw [Line.keyword?, Line.keyword?, h.trimmed]

theorem isCode (h : line.SameView line') : line'.isCode = line.isCode := by
  rw [Line.isCode, Line.isCode, h.trimmed]

theorem isTransition (h : line.SameView line') : line'.isTransition = line.isTransition := by
  rw [Line.isTransition, Line.isTransition, h.keyword?]

theorem keywordSpan (h : line.SameView line') (hcode : line.isCode = true) (k : Keyword) :
    line'.keywordSpan k = line.keywordSpan k := by
  rw [Line.keywordSpan, Line.keywordSpan, h.indent hcode]

theorem arguments (h : line.SameView line') (hcode : line.isCode = true) (k : Keyword) :
    line'.arguments k = line.arguments k := by
  rw [Line.arguments, Line.arguments, h.indent hcode, h.trimmed]

end Line.SameView

/-! ## Arguments -/

theorem previousMarks_onLine {previous previous' : Option Line}
    (hprevious : previous'.map Line.trimmed = previous.map Line.trimmed)
    (hspan : line'.keywordSpan k = line.keywordSpan k) :
    previousMarks previous' line' k = (previousMarks previous line k).map (Mark.onLine line') := by
  cases previous with
  | none =>
    obtain rfl := Option.map_eq_none_iff.1 hprevious
    rfl
  | some p =>
    obtain ⟨p', rfl, hp⟩ := Option.map_eq_some_iff.1 hprevious
    simp only [previousMarks, hp]
    split <;> simp [Line.markKeyword, Mark.onLine, hspan]

theorem fixedArgumentMarks_onLine (hspan : line'.keywordSpan k = line.keywordSpan k)
    (specs : List ArgSpec) (args : List Segment) :
    fixedArgumentMarks line' k specs args =
      (fixedArgumentMarks line k specs args).map (Mark.onLine line') := by
  have hkeyword : ∀ cause, line'.markKeyword k cause =
      (line.markKeyword k cause).onLine line' := by
    intro cause
    rw [Line.markKeyword, hspan]
    rfl
  unfold fixedArgumentMarks
  split
  · split <;> simp [hkeyword]
  · rw [List.map_append, missingMarks, missingMarks, shapeMarks, shapeMarks, List.map_filterMap,
      List.map_filterMap]
    congr 2
    · funext ⟨spec, i⟩
      simp only
      split <;> simp [hkeyword]
    · funext ⟨arg, i⟩
      simp only
      split
      · rfl
      · split <;> rfl

theorem valueMarks_onLine (line line' : Line) (command : String) (parameter : Parameter) (value : Segment) :
    valueMarks line' command parameter value =
      (valueMarks line command parameter value).map (Mark.onLine line') := by
  rw [valueMarks, valueMarks, List.map_append]
  congr 1
  · split <;> rfl
  · cases parameterCause? command parameter value.text <;> rfl

theorem parameterMarks_onLine (line line' : Line) (command : String) (name : Span)
    (parameters : List Parameter) (values : List Segment) :
    parameterMarks line' command name parameters values =
      (parameterMarks line command name parameters values).map (Mark.onLine line') := by
  induction parameters generalizing values with
  | nil => rw [parameterMarks, parameterMarks, List.map_nil]
  | cons parameter parameters ih =>
    cases values with
    | nil =>
      rw [parameterMarks, parameterMarks, List.map_append, ih]
      congr 1
      split <;> rfl
    | cons value values =>
      rw [parameterMarks, parameterMarks, List.map_append, ih, valueMarks_onLine line]

theorem commandMarks_onLine (catalog : Catalog) (args : List Segment) :
    commandMarks catalog line' args =
      (commandMarks catalog line args).map (Mark.onLine line') := by
  cases args with
  | nil => rfl
  | cons first values =>
    rw [commandMarks, commandMarks]
    cases commandName? first.text with
    | none => rfl
    | some name =>
      simp only
      cases catalog.get? (String.ofList name) with
      | none => rfl
      | some entry =>
        simp only [entryMarks, List.map_append]
        rw [parameterMarks_onLine line]
        congr 1
        split <;> rfl

theorem argumentMarks_onLine (h : line.SameView line') (hcode : line.isCode = true)
    (catalog : Catalog) :
    argumentMarks catalog line' k = (argumentMarks catalog line k).map (Mark.onLine line') := by
  rw [argumentMarks, argumentMarks, h.arguments hcode]
  split
  · exact fixedArgumentMarks_onLine (h.keywordSpan hcode k) _ _
  · exact commandMarks_onLine catalog _

/-! ## Menus -/

theorem menuMarks_onLine (h : line.SameView line') (hcode : line.isCode = true)
    (menu : Option MenuState) :
    MenuState.marks menu line' k = (MenuState.marks menu line k).map (Mark.onLine line') := by
  unfold MenuState.marks
  rw [h.arguments hcode]
  split
  next label _ _ => cases MenuState.labelCause? (menu.getD .untimed) label.text <;> rfl
  next => rfl

theorem next_of_sameView (h : line.SameView line') (hcode : line.isCode = true)
    (menu : Option MenuState) : MenuState.next menu line' = MenuState.next menu line := by
  rw [MenuState.next, MenuState.next, h.keyword?, h.arguments hcode]

theorem keywordMarks_onLine (h : line.SameView line') (hcode : line.isCode = true) (d : Declared)
    {s s' : CheckState} (hmenu : s'.menu = s.menu)
    (hprevious : s'.previous.map Line.trimmed = s.previous.map Line.trimmed) :
    keywordMarks d s' line' = (keywordMarks d s line).map (Mark.onLine line') := by
  rw [keywordMarks, keywordMarks, h.keyword?]
  cases line.keyword? with
  | none => rfl
  | some k =>
    simp only [List.map_append, hmenu, previousMarks_onLine hprevious (h.keywordSpan hcode k),
      argumentMarks_onLine h hcode, menuMarks_onLine h hcode]

/-! ## The code of a line -/

theorem referenceMarks_onLine (h : line.SameView line') (d : Declared) :
    referenceMarks d line' = (referenceMarks d line).map (Mark.onLine line') := by
  have hmeta : metaMarks line' = (metaMarks line).map (Mark.onLine line') := by
    rw [metaMarks, metaMarks, h.hits, List.map_map]
    rfl
  have hpage : pageMarks d line' = (pageMarks d line).map (Mark.onLine line') := by
    rw [pageMarks, pageMarks, h.hits, List.map_filterMap]
    refine congrArg (List.filterMap · _) (funext fun hit => ?_)
    split <;> rfl
  have hflag : flagMarks d line' = (flagMarks d line).map (Mark.onLine line') := by
    rw [flagMarks, flagMarks, h.hits, List.map_filterMap]
    refine congrArg (List.filterMap · _) (funext fun hit => ?_)
    split <;> rfl
  have hcommand : unknownCommandMarks d line' =
      (unknownCommandMarks d line).map (Mark.onLine line') := by
    rw [unknownCommandMarks, unknownCommandMarks, h.hits, List.map_filterMap]
    refine congrArg (List.filterMap · _) (funext fun hit => ?_)
    split <;> rfl
  rw [referenceMarks, referenceMarks, h.keyword?, hmeta, hpage, hflag, hcommand, List.map_append,
    List.map_append]
  congr 2
  · split <;> rfl
  · split <;> rfl
  · split <;> rfl

theorem joinMarks_onLine (h : line.SameView line') :
    joinMarks line' = (joinMarks line).map (Mark.onLine line') := by
  simp only [joinMarks, firstMark, h.hits, List.map_append, List.map_map]
  rfl

theorem placementMarks_onLine (h : line.SameView line') :
    placementMarks line' = (placementMarks line).map (Mark.onLine line') := by
  have hif : ∀ {p : Prop} [Decidable p] {f f' : Hit → Mark} (hits : List Hit),
      (∀ hit, f' hit = (f hit).onLine line') → (if p then [] else hits.map f') =
        (if p then [] else hits.map f).map (Mark.onLine line') := by
    intro p _ f f' hits hf
    obtain rfl : f' = Mark.onLine line' ∘ f := funext hf
    split <;> simp
  simp only [placementMarks, h.hits, h.keyword?, h.isTransition, h.isText, List.map_append]
  congr 1
  · congr 1
    · congr 1
      · exact hif _ fun _ => rfl
      · exact hif _ fun _ => rfl
    · exact hif _ fun _ => rfl
  · exact hif _ fun _ => rfl

theorem negationMarksIn_onLine (line line' : Line) (ws : List Segment) :
    negationMarksIn line' ws = (negationMarksIn line ws).map (Mark.onLine line') := by
  induction ws with
  | nil => rfl
  | cons w ws ih =>
    rw [negationMarksIn, negationMarksIn, List.map_append, ih]
    congr 1
    split <;> rfl

theorem negationMarks_onLine (h : line.SameView line') :
    negationMarks line' = (negationMarks line).map (Mark.onLine line') := by
  rw [negationMarks, h.negations, negationMarks, negationMarksIn_onLine line]

/-! ## All checks of a line -/

/-- **Lines that look the same get the same marks**, each on its own line. -/
theorem lineMarks_onLine (h : line.SameView line') (d : Declared) {s s' : CheckState}
    (hmenu : s'.menu = s.menu)
    (hprevious : s'.previous.map Line.trimmed = s.previous.map Line.trimmed) :
    lineMarks d s' line' = (lineMarks d s line).map (Mark.onLine line') := by
  rw [lineMarks, lineMarks, h.isCode]
  split
  next hcode =>
    simp only [codeMarks, List.map_append, keywordMarks_onLine h hcode d hmenu hprevious,
      referenceMarks_onLine h, joinMarks_onLine h, placementMarks_onLine h, negationMarks_onLine h]
  next => rfl

theorem declarations_onLine (h : line.SameView line') :
    line'.declarations = line.declarations.map fun d => { d with line := line' } := by
  have hargument : ∀ kind a, Declaration.ofArgument? line' kind a =
      (Declaration.ofArgument? line kind a).map fun d => { d with line := line' } := by
    intro kind a
    rw [Declaration.ofArgument?, Declaration.ofArgument?, Option.map_map]
    rfl
  have harguments : ∀ {k}, line.keyword? = some k → line'.arguments k = line.arguments k :=
    fun hk => h.arguments (Line.isCode_of_keyword? hk) _
  rw [Line.declarations, Line.declarations, h.keyword?]
  split
  next hk =>
    rw [harguments hk, List.map_filterMap]
    exact congrArg (List.filterMap · _) (funext fun a => hargument .page a)
  next hk =>
    rw [harguments hk, List.map_filterMap]
    exact congrArg (List.filterMap · _) (funext fun a => hargument .flag a)
  next => rfl

end

theorem line_of_mem_declarations {line : Line} {d : Declaration} (h : d ∈ line.declarations) :
    d.line = line := by
  have hargument : ∀ {kind a}, Declaration.ofArgument? line kind a = some d → d.line = line := by
    intro kind a ha
    obtain ⟨name, -, rfl⟩ := Option.map_eq_some_iff.1 ha
    rfl
  unfold Line.declarations at h
  split at h
  · obtain ⟨a, -, ha⟩ := List.mem_filterMap.1 h
    exact hargument ha
  · obtain ⟨a, -, ha⟩ := List.mem_filterMap.1 h
    exact hargument ha
  · exact absurd h (by simp)

/-! ## Lines that are no code -/

theorem declarations_filter_isCode (lines : List Line) :
    declarations (lines.filter Line.isCode) = declarations lines := by
  induction lines with
  | nil => rfl
  | cons line lines ih =>
    rw [declarations, declarations] at ih ⊢
    by_cases hcode : line.isCode = true
    · rw [List.filter_cons_of_pos hcode, List.flatMap_cons, List.flatMap_cons, ih]
    · have hnone : line.declarations = [] := by
        unfold Line.declarations
        split
        next hk => exact absurd (Line.isCode_of_keyword? hk) hcode
        next hk => exact absurd (Line.isCode_of_keyword? hk) hcode
        next => rfl
      rw [List.filter_cons_of_neg hcode, List.flatMap_cons, hnone, ih, List.nil_append]

theorem repeatedHeaderMarks_filter_isCode (lines : List Line) :
    repeatedHeaderMarks (lines.filter Line.isCode) = repeatedHeaderMarks lines := by
  have hheader : ∀ line : Line, (decide (line.keyword? = some .define) && line.isCode) =
      decide (line.keyword? = some .define) := by
    intro line
    by_cases hk : line.keyword? = some .define
    · simp [hk, Line.isCode_of_keyword? hk]
    · simp [hk]
  rw [repeatedHeaderMarks, repeatedHeaderMarks, List.filter_filter]
  simp only [hheader]

theorem marksFrom_filter_isCode (d : Declared) (s : CheckState) (lines : List Line) :
    marksFrom d s (lines.filter Line.isCode) = marksFrom d s lines := by
  induction lines generalizing s with
  | nil => rfl
  | cons line lines ih =>
    by_cases hcode : line.isCode = true
    · rw [List.filter_cons_of_pos hcode, marksFrom, marksFrom, ih]
    · rw [List.filter_cons_of_neg hcode, marksFrom, lineMarks, if_neg hcode, CheckState.next,
        if_neg hcode, List.nil_append, ih]

/-- **Only lines of code count**, for marks. -/
theorem allMarks_filter_isCode (catalog : Catalog) (lines : List Line) :
    allMarks catalog (lines.filter Line.isCode) = allMarks catalog lines := by
  rw [allMarks, allMarks, Declared.ofLines, Declared.ofLines, repeatedHeaderMarks_filter_isCode,
    declarations_filter_isCode, marksFrom_filter_isCode]

/-! ## Texts that look the same -/

/-- The marks have the same cause and the same place, on lines that correspond. -/
structure Mark.Moved (R : Line → Line → Prop) (m m' : Mark) : Prop where
  /-- The lines. -/
  line : R m.line m'.line
  /-- The places on them. -/
  span : m'.span = m.span
  /-- The causes. -/
  cause : m'.cause = m.cause

/-- The declarations are the same, on lines that correspond. -/
structure Declaration.Moved (R : Line → Line → Prop) (d d' : Declaration) : Prop where
  /-- The lines. -/
  line : R d.line d'.line
  /-- All else. -/
  eq : d' = { d with line := d'.line }

section

variable {R : Line → Line → Prop} (hR : ∀ {line line'}, R line line' → line.SameView line')
  {lines lines' : List Line}

theorem moved_onLine {line line' : Line} (h : R line line') {ms : List Mark}
    (hms : ∀ m ∈ ms, m.line = line) :
    List.Forall₂ (Mark.Moved R) ms (ms.map (Mark.onLine line')) := by
  rw [List.forall₂_map_right_iff, List.forall₂_same]
  exact fun m hm => ⟨(hms m hm).symm ▸ h, rfl, rfl⟩

include hR

theorem moved_declarations (h : List.Forall₂ R lines lines') :
    List.Forall₂ (Declaration.Moved R) (declarations lines) (declarations lines') := by
  refine List.rel_flatMap h fun line line' hline => ?_
  rw [declarations_onLine (hR hline), List.forall₂_map_right_iff, List.forall₂_same]
  exact fun d hd => ⟨(line_of_mem_declarations hd).symm ▸ hline, rfl⟩

theorem ofLines_of_moved (h : List.Forall₂ R lines lines') (catalog : Catalog) :
    Declared.ofLines catalog lines' = Declared.ofLines catalog lines := by
  have hnames : ∀ {ds ds' : List Declaration}, List.Forall₂ (Declaration.Moved R) ds ds' →
      ∀ kind, declaredNames kind ds' = declaredNames kind ds := by
    intro ds ds' hds kind
    induction hds with
    | nil => rfl
    | cons hd _ ih =>
      rw [declaredNames, declaredNames] at ih ⊢
      rw [List.filterMap_cons, List.filterMap_cons, ih, hd.eq]
  have hds := moved_declarations hR h
  rw [Declared.ofLines, Declared.ofLines, hnames hds, hnames hds]

omit hR in
theorem moved_duplicateMarks {ds ds' : List Declaration}
    (h : List.Forall₂ (Declaration.Moved R) ds ds') (seen : List (NameKind × String)) :
    List.Forall₂ (Mark.Moved R) (duplicateMarks seen ds) (duplicateMarks seen ds') := by
  induction h generalizing seen with
  | nil => exact .nil
  | cons hd _ ih =>
    rw [duplicateMarks, duplicateMarks, hd.eq]
    simp only
    split
    · exact .cons ⟨hd.line, rfl, rfl⟩ (ih _)
    · exact ih _

theorem moved_repeatedHeaderMarks (h : List.Forall₂ R lines lines') :
    List.Forall₂ (Mark.Moved R) (repeatedHeaderMarks lines) (repeatedHeaderMarks lines') := by
  have hheaders : List.Forall₂ R (lines.filter fun line => line.keyword? = some .define)
      (lines'.filter fun line => line.keyword? = some .define) := by
    refine List.rel_filter (fun line line' hline => ?_) h
    simp only [(hR hline).keyword?]
  have hkeyword : ∀ line ∈ lines.filter fun line => line.keyword? = some .define,
      line.keyword? = some .define :=
    fun line hline => of_decide_eq_true (List.mem_filter.1 hline).2
  refine List.rel_map (fun line line' hline => ?_)
    (List.forall₂_drop 1 ((List.forall₂_and_left _ _).2 ⟨hkeyword, hheaders⟩))
  exact ⟨hline.2, (hR hline.2).keywordSpan (Line.isCode_of_keyword? hline.1) _, rfl⟩

/-- **The walk** down the lines puts the same marks on lines that correspond. -/
theorem moved_marksFrom (h : List.Forall₂ R lines lines') (d : Declared) {s s' : CheckState}
    (hmenu : s'.menu = s.menu)
    (hprevious : s'.previous.map Line.trimmed = s.previous.map Line.trimmed) :
    List.Forall₂ (Mark.Moved R) (marksFrom d s lines) (marksFrom d s' lines') := by
  induction h generalizing s s' with
  | nil => exact .nil
  | @cons line line' lines lines' hline _ ih =>
    have hview := hR hline
    rw [marksFrom, marksFrom, lineMarks_onLine hview d hmenu hprevious]
    refine List.rel_append (moved_onLine hline fun m hm => line_eq_of_mem_lineMarks hm) (ih ?_ ?_)
    · unfold CheckState.next
      rw [hview.isCode]
      split
      next hcode => simp only [hmenu, next_of_sameView hview hcode]
      next => exact hmenu
    · unfold CheckState.next
      rw [hview.isCode]
      split
      next => simp only [Option.map_some, hview.trimmed]
      next => exact hprevious

/-- **Texts whose lines of code look the same** get the same marks, on lines that correspond. -/
theorem moved_allMarks (h : List.Forall₂ R (lines.filter Line.isCode) (lines'.filter Line.isCode))
    (catalog : Catalog) :
    List.Forall₂ (Mark.Moved R) (allMarks catalog lines) (allMarks catalog lines') := by
  rw [← allMarks_filter_isCode, ← allMarks_filter_isCode catalog lines', allMarks, allMarks,
    ofLines_of_moved hR h]
  refine List.rel_append (List.rel_append (moved_repeatedHeaderMarks hR h) ?_) ?_
  · exact moved_duplicateMarks (moved_declarations hR h) []
  · exact moved_marksFrom hR h _ rfl rfl

end

end Gamebook
