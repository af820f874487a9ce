import Gamebook.Check.Report
import Gamebook.Proofs.Text.Pieces

/-!
Gamebook.Proofs.Check.Report — from marks on lines to what a report says.

A report walks down the lines with a state. `mem_marksFrom` takes the walk apart: a mark belongs to
one line, and it was put there in the state behind the lines in front. Most causes lie in the line
itself (`Mark.IsLocal`); `mem_lineMarks_cases` says that the state matters for the others only, and
`line_eq_of_mem_lineMarks` that no check marks any other line than the one it looks at.

A text is accepted (`Accepted`) when nothing in its report is an error.
-/

namespace Gamebook

open Text

/-! ## Marks and lines -/

/-- **A mark was put on one line**, in the state behind the lines in front of it. -/
theorem mem_marksFrom {d : Declared} {m : Mark} : ∀ {lines : List Line} {s : CheckState},
    m ∈ marksFrom d s lines ↔
      ∃ before line after, lines = before ++ line :: after ∧
        m ∈ lineMarks d (before.foldl CheckState.next s) line
  | [], s => by
      constructor
      · intro h; exact absurd h (by simp [marksFrom])
      · rintro ⟨before, line, after, h, -⟩
        exact absurd h (by simp)
  | l :: lines, s => by
      rw [marksFrom, List.mem_append, @mem_marksFrom d m lines]
      constructor
      · rintro (h | ⟨before, line, after, rfl, hm⟩)
        · exact ⟨[], l, lines, rfl, h⟩
        · exact ⟨l :: before, line, after, rfl, hm⟩
      · rintro ⟨before, line, after, h, hm⟩
        cases before with
        | nil =>
          obtain ⟨rfl, rfl⟩ := List.cons.inj h
          exact Or.inl hm
        | cons b before =>
          obtain ⟨rfl, rfl⟩ := List.cons.inj h
          exact Or.inr ⟨before, line, after, rfl, hm⟩

/-- The cause lies in front of the line: in the line of code before it, or in the open menu. -/
def Cause.isContextual : Cause → Bool
  | misplaced .. | nothingToRepeat | noTimeLimit => true
  | _ => false

/-- The mark is on this line, and its cause lies in the line itself. -/
structure Mark.IsLocal (line : Line) (m : Mark) : Prop where
  /-- The mark is on this line. -/
  line_eq : m.line = line
  /-- The cause is not in front of the line. -/
  isContextual : m.cause.isContextual = false

/-! ### Marks on arguments -/

theorem isContextual_of_parameterCause? {command : String} {parameter : Parameter}
    {value : List Char} {cause : Cause}
    (h : parameterCause? command parameter value = some cause) : cause.isContextual = false := by
  unfold parameterCause? at h
  split at h
  · exact absurd h (by simp)
  · split at h
    · rw [← Option.some.inj h]; rfl
    · split at h
      · rw [← Option.some.inj h]; rfl
      · exact absurd h (by simp)

theorem isLocal_of_mem_parameterMarks {line : Line} {command : String} {name : Span} {m : Mark} :
    ∀ {parameters : List Parameter} {values : List Segment},
      m ∈ parameterMarks line command name parameters values → m.IsLocal line
  | [], _, h => by simp [parameterMarks] at h
  | parameter :: parameters, value :: values, h => by
      rw [parameterMarks, List.mem_append, valueMarks, List.mem_append, Option.mem_toList,
        Option.map_eq_some_iff] at h
      rcases h with (h | ⟨cause, hcause, rfl⟩) | h
      · split at h
        · exact absurd h (by simp)
        · rw [List.mem_singleton.1 h]
          exact ⟨rfl, rfl⟩
      · exact ⟨rfl, isContextual_of_parameterCause? hcause⟩
      · exact isLocal_of_mem_parameterMarks h
  | parameter :: parameters, [], h => by
      rw [parameterMarks, List.mem_append] at h
      rcases h with h | h
      · split at h
        · rw [List.mem_singleton.1 h]
          exact ⟨rfl, rfl⟩
        · exact absurd h (by simp)
      · exact isLocal_of_mem_parameterMarks h

theorem isLocal_of_mem_commandMarks {catalog : Catalog} {line : Line} {args : List Segment}
    {m : Mark} (h : m ∈ commandMarks catalog line args) : m.IsLocal line := by
  unfold commandMarks at h
  split at h
  · exact absurd h (by simp)
  · split at h
    · exact absurd h (by simp)
    · split at h
      · exact absurd h (by simp)
      · rw [entryMarks, List.mem_append] at h
        rcases h with h | h
        · split at h
          · rw [List.mem_singleton.1 h]
            exact ⟨rfl, rfl⟩
          · exact absurd h (by simp)
        · exact isLocal_of_mem_parameterMarks h

theorem isLocal_of_mem_fixedArgumentMarks {line : Line} {k : Keyword} {specs : List ArgSpec}
    {args : List Segment} {m : Mark} (h : m ∈ fixedArgumentMarks line k specs args) :
    m.IsLocal line := by
  unfold fixedArgumentMarks at h
  split at h
  · split at h
    · exact absurd h (by simp)
    · rw [List.mem_singleton.1 h]
      exact ⟨rfl, rfl⟩
  · rw [List.mem_append] at h
    rcases h with h | h
    · obtain ⟨⟨spec, i⟩, -, hm⟩ := List.mem_filterMap.1 h
      simp only at hm
      split at hm
      · rw [← Option.some.inj hm]
        refine ⟨rfl, ?_⟩
        show (missingCause k i).isContextual = false
        unfold missingCause
        split <;> rfl
      · exact absurd hm (by simp)
    · obtain ⟨⟨arg, i⟩, -, hm⟩ := List.mem_filterMap.1 h
      simp only at hm
      split at hm
      · rw [← Option.some.inj hm]
        exact ⟨rfl, rfl⟩
      · split at hm
        · exact absurd hm (by simp)
        · rw [← Option.some.inj hm]
          exact ⟨rfl, rfl⟩

theorem isLocal_of_mem_argumentMarks {catalog : Catalog} {line : Line} {k : Keyword} {m : Mark}
    (h : m ∈ argumentMarks catalog line k) : m.IsLocal line := by
  unfold argumentMarks at h
  split at h
  · exact isLocal_of_mem_fixedArgumentMarks h
  · exact isLocal_of_mem_commandMarks h

/-! ### Marks on the code of a line -/

theorem isLocal_of_mem_negationMarksIn {line : Line} {m : Mark} : ∀ {ws : List Segment},
    m ∈ negationMarksIn line ws → m.IsLocal line
  | [], h => by simp [negationMarksIn] at h
  | w :: ws, h => by
      rw [negationMarksIn, List.mem_append] at h
      rcases h with h | h
      · split at h
        · rw [List.mem_singleton.1 h]
          exact ⟨rfl, rfl⟩
        · exact absurd h (by simp)
      · exact isLocal_of_mem_negationMarksIn h

theorem isLocal_of_mem_referenceMarks {d : Declared} {line : Line} {m : Mark}
    (h : m ∈ referenceMarks d line) : m.IsLocal line := by
  rw [referenceMarks, List.mem_append, List.mem_append] at h
  rcases h with (h | h) | h
  · split at h
    · obtain ⟨hit, -, rfl⟩ := List.mem_map.1 h
      exact ⟨rfl, rfl⟩
    · obtain ⟨hit, -, hm⟩ := List.mem_filterMap.1 h
      split at hm
      · rw [← Option.some.inj hm]
        exact ⟨rfl, rfl⟩
      · exact absurd hm (by simp)
  · split at h
    · exact absurd h (by simp)
    · obtain ⟨hit, -, hm⟩ := List.mem_filterMap.1 h
      split at hm
      · rw [← Option.some.inj hm]
        exact ⟨rfl, rfl⟩
      · exact absurd hm (by simp)
  · split at h
    · exact absurd h (by simp)
    · obtain ⟨hit, -, hm⟩ := List.mem_filterMap.1 h
      split at hm
      · exact absurd hm (by simp)
      · rw [← Option.some.inj hm]
        exact ⟨rfl, rfl⟩

theorem isLocal_of_mem_codeMarks {d : Declared} {line : Line} {m : Mark}
    (h : m ∈ codeMarks d line) : m.IsLocal line := by
  rw [codeMarks, List.mem_append, List.mem_append, List.mem_append] at h
  rcases h with ((h | h) | h) | h
  · exact isLocal_of_mem_referenceMarks h
  · rw [joinMarks, List.mem_append] at h
    rcases h with h | h
    all_goals
      obtain ⟨hit, -, rfl⟩ := List.mem_map.1 h
      exact ⟨rfl, rfl⟩
  · rw [placementMarks, List.mem_append, List.mem_append, List.mem_append] at h
    rcases h with ((h | h) | h) | h
    all_goals
      split at h
      · exact absurd h (by simp)
      · obtain ⟨hit, -, rfl⟩ := List.mem_map.1 h
        exact ⟨rfl, rfl⟩
  · exact isLocal_of_mem_negationMarksIn h

/-! ### Marks on what stands in front -/

/-- The marks on a line whose causes lie in front of it. -/
def contextMarks (s : CheckState) (line : Line) (k : Keyword) : List Mark :=
  previousMarks s.previous line k ++ MenuState.marks s.menu line k

theorem line_eq_of_mem_contextMarks {s : CheckState} {line : Line} {k : Keyword} {m : Mark}
    (h : m ∈ contextMarks s line k) : m.line = line := by
  rcases List.mem_append.1 h with h | h
  · unfold previousMarks at h
    split at h
    · exact absurd h (by simp)
    · split at h
      · exact absurd h (by simp)
      · rw [List.mem_singleton.1 h]
        rfl
  · unfold MenuState.marks at h
    split at h
    · rw [Option.mem_toList, Option.map_eq_some_iff] at h
      obtain ⟨cause, -, rfl⟩ := h
      rfl
    · exact absurd h (by simp)

/-- **A mark on a line** is about the line itself, or about what stands in front of its keyword. -/
theorem mem_lineMarks_cases {d : Declared} {s : CheckState} {line : Line} {m : Mark}
    (h : m ∈ lineMarks d s line) :
    m.IsLocal line ∨ ∃ k, line.keyword? = some k ∧ m ∈ contextMarks s line k := by
  unfold lineMarks at h
  split at h
  · rw [List.mem_append] at h
    rcases h with h | h
    · unfold keywordMarks at h
      split at h
      next => exact absurd h (by simp)
      next k hk =>
        rw [List.mem_append, List.mem_append] at h
        rcases h with (h | h) | h
        · exact Or.inr ⟨k, hk, List.mem_append_left _ h⟩
        · exact Or.inl (isLocal_of_mem_argumentMarks h)
        · exact Or.inr ⟨k, hk, List.mem_append_right _ h⟩
    · exact Or.inl (isLocal_of_mem_codeMarks h)
  · exact absurd h (by simp)

theorem mem_lineMarks_of_mem_contextMarks {d : Declared} {s : CheckState} {line : Line}
    {k : Keyword} {m : Mark} (hcode : line.isCode = true) (hk : line.keyword? = some k)
    (h : m ∈ contextMarks s line k) : m ∈ lineMarks d s line := by
  rw [lineMarks, if_pos hcode, List.mem_append, keywordMarks, hk]
  refine Or.inl ?_
  rcases List.mem_append.1 h with h | h
  · exact List.mem_append_left _ (List.mem_append_left _ h)
  · exact List.mem_append_right _ h

/-- **No check marks another line than the one it looks at.** -/
theorem line_eq_of_mem_lineMarks {d : Declared} {s : CheckState} {line : Line} {m : Mark}
    (h : m ∈ lineMarks d s line) : m.line = line := by
  rcases mem_lineMarks_cases h with hlocal | ⟨k, -, hm⟩
  · exact hlocal.line_eq
  · exact line_eq_of_mem_contextMarks hm

/-! ## Reports -/

theorem cause_of_mem_headerFindings {lines : List Line} {f : Finding}
    (h : f ∈ headerFindings lines) : f.cause = .noHeader := by
  unfold headerFindings at h
  split at h
  · split at h
    · exact absurd h (by simp)
    · rw [List.mem_singleton.1 h]
  · rw [List.mem_singleton.1 h]

theorem mem_findings {catalog : Catalog} {text : String} {f : Finding} :
    f ∈ findings catalog text ↔ f ∈ headerFindings (Line.ofText text.toList) ∨
      ∃ m ∈ allMarks catalog (Line.ofText text.toList), m.finding? = some f := by
  rw [findings, List.mem_append, List.mem_filterMap]

/-- A finding has the cause of its mark. -/
theorem Mark.cause_of_finding? {m : Mark} {f : Finding} (h : m.finding? = some f) :
    f.cause = m.cause ∧ f.line = m.line.number := by
  obtain ⟨columns, -, rfl⟩ := Option.map_eq_some_iff.1 h
  exact ⟨rfl, rfl⟩

/-- Findings are told apart by their causes as marks are. -/
theorem filter_filterMap_finding? (p : Cause → Bool) (ms : List Mark) :
    ((ms.filterMap Mark.finding?).filter fun f => p f.cause) =
      (ms.filter fun m => p m.cause).filterMap Mark.finding? := by
  induction ms with
  | nil => rfl
  | cons m ms ih =>
    cases hm : m.finding? with
    | none => by_cases hp : p m.cause <;> simp [hm, hp, ih]
    | some f =>
      have hcause := (Mark.cause_of_finding? hm).1
      by_cases hp : p m.cause <;> simp [hm, hcause, hp, ih]

/-- Marks that do not hang on the state of the walk can be told line by line. -/
theorem filter_marksFrom_eq_flatMap {d : Declared} {keep : Mark → Bool} {f : Line → List Mark}
    (h : ∀ s line, (lineMarks d s line).filter keep = f line) (lines : List Line) (s : CheckState) :
    (marksFrom d s lines).filter keep = lines.flatMap f := by
  induction lines generalizing s with
  | nil => rfl
  | cons line lines ih => rw [marksFrom, List.filter_append, h, ih, List.flatMap_cons]

theorem mem_allMarks_of_mem_lineMarks {catalog : Catalog} {lines before after : List Line}
    {line : Line} {m : Mark} (hlines : lines = before ++ line :: after)
    (h : m ∈ lineMarks (Declared.ofLines catalog lines) (before.foldl CheckState.next .initial)
      line) : m ∈ allMarks catalog lines := by
  rw [allMarks, List.mem_append, mem_marksFrom]
  exact Or.inr ⟨before, line, after, hlines, h⟩

/-! ## Accepted texts -/

/-- Nothing in the report of the text is an error. -/
def Accepted (catalog : Catalog) (text : String) : Prop :=
  ∀ d ∈ diagnostics catalog text, d.severity ≠ .error

/-- A text is accepted if its header is in place and no mark on it is an error. -/
theorem accepted_of_marks {catalog : Catalog} {text : String}
    (hheader : headerFindings (Line.ofText text.toList) = [])
    (hmarks : ∀ m ∈ allMarks catalog (Line.ofText text.toList), m.cause.severity ≠ .error) :
    Accepted catalog text := by
  intro d hd
  obtain ⟨f, hf, rfl⟩ := List.mem_map.1 hd
  rcases mem_findings.1 hf with hf | ⟨m, hm, hfinding⟩
  · rw [hheader] at hf
    exact absurd hf (by simp)
  · obtain ⟨columns, -, rfl⟩ := Option.map_eq_some_iff.1 hfinding
    exact hmarks m hm

end Gamebook
