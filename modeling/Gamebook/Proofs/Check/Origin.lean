import Gamebook.Proofs.Check.Report

/-!
Gamebook.Proofs.Check.Origin — which check a cause comes from.

Every check has causes of its own (`Cause.origin`), so a mark tells which check put it there. For each
list of marks one lemma `comesFrom_*` says whose marks they are. In a list that holds the marks of all
checks, those of one check can then be told from the others: `mem_commandMarks_of_origin`,
`mem_unknownCommandMarks_of_origin` and `mem_joinMarks_of_origin` do so for the marks on a line.
-/

namespace Gamebook

open Text

/-- The checks of a text, in the order in which they are made. -/
inductive Origin where
  /-- The header comes first, and comes once. -/
  | header
  /-- Names are declared once. -/
  | declaration
  /-- What stands in front of a keyword. -/
  | previous
  /-- How many arguments a keyword has, and of which shape. -/
  | argument
  /-- The arguments of a command, against the catalog. -/
  | command
  /-- What the label of an option asks of its menu. -/
  | menu
  /-- Pages and flags that are used. -/
  | reference
  /-- Commands that are used, against the catalog. -/
  | listing
  /-- Clauses that are joined. -/
  | join
  /-- Words that are out of place. -/
  | placement
  /-- Negations of nothing. -/
  | negation
deriving DecidableEq, Repr

/-- The check that finds the cause. -/
def Cause.origin : Cause → Origin
  | noHeader | repeatedHeader => .header
  | duplicate .. => .declaration
  | misplaced .. => .previous
  | takesNoArguments _ | missingName | missingArgument .. => .argument
  | tooManyArguments _ | badArgument .. => .argument
  | commandTakesAtMost .. | commandMissing .. | commandArgumentShape => .command
  | commandArgumentForm .. | notPreset .. => .command
  | nothingToRepeat | noTimeLimit => .menu
  | metaDeclared _ | undeclared .. => .reference
  | unknownCommand _ => .listing
  | joinedConditions | joinedEffects => .join
  | misplacedTime | misplacedSpecial _ | misplacedCondition | misplacedEffect => .placement
  | danglingNegation => .negation

/-- All these marks come from one check. -/
def ComesFrom (origin : Origin) (ms : List Mark) : Prop := ∀ m ∈ ms, m.cause.origin = origin

section

variable {origin : Origin} {line : Line} {k : Keyword}

namespace ComesFrom

@[simp] theorem nil : ComesFrom origin [] := fun _ h => absurd h (by simp)

@[simp] theorem cons_iff {m : Mark} {ms : List Mark} :
    ComesFrom origin (m :: ms) ↔ m.cause.origin = origin ∧ ComesFrom origin ms :=
  List.forall_mem_cons

@[simp] theorem append_iff {ms ns : List Mark} :
    ComesFrom origin (ms ++ ns) ↔ ComesFrom origin ms ∧ ComesFrom origin ns :=
  List.forall_mem_append

theorem map {α : Type} {f : α → Mark} (h : ∀ a, (f a).cause.origin = origin) (as : List α) :
    ComesFrom origin (as.map f) := by
  intro m hm
  obtain ⟨a, -, rfl⟩ := List.mem_map.1 hm
  exact h a

theorem filterMap {α : Type} {f : α → Option Mark}
    (h : ∀ a, ∀ m ∈ f a, m.cause.origin = origin) (as : List α) :
    ComesFrom origin (as.filterMap f) := by
  intro m hm
  obtain ⟨a, -, ha⟩ := List.mem_filterMap.1 hm
  exact h a m ha

/-- A mark of one check is no mark of another one. -/
theorem notMem {ms : List Mark} (h : ComesFrom origin ms) {m : Mark}
    (hm : m.cause.origin ≠ origin) : m ∉ ms := fun hmem => hm (h m hmem)

/-- Marks of one check are all kept, or all dropped, where causes are told by their checks. -/
theorem filter_eq {ms : List Mark} (h : ComesFrom origin ms) (keep : Origin → Bool) :
    (ms.filter fun m => keep m.cause.origin) = if keep origin then ms else [] := by
  split
  next hkeep => exact List.filter_eq_self.2 fun m hm => by rw [h m hm]; exact hkeep
  next hdrop => exact List.filter_eq_nil_iff.2 fun m hm => by rw [h m hm]; exact hdrop

end ComesFrom

/-! ## The header and the declarations -/

theorem comesFrom_repeatedHeaderMarks (lines : List Line) :
    ComesFrom .header (repeatedHeaderMarks lines) := by
  unfold repeatedHeaderMarks
  exact .map (fun _ => by rfl) _

theorem comesFrom_duplicateMarks (ds : List Declaration) (seen : List (NameKind × String)) :
    ComesFrom .declaration (duplicateMarks seen ds) := by
  induction ds generalizing seen with
  | nil => exact .nil
  | cons d ds ih =>
    rw [duplicateMarks]
    split
    · exact ComesFrom.cons_iff.2 ⟨rfl, ih _⟩
    · exact ih _

/-! ## Keywords -/

theorem comesFrom_previousMarks (previous : Option Line) :
    ComesFrom .previous (previousMarks previous line k) := by
  unfold previousMarks
  split
  · exact .nil
  · split <;> simp [Line.markKeyword, Cause.origin]

theorem origin_missingCause (k : Keyword) (i : Nat) : (missingCause k i).origin = .argument := by
  unfold missingCause
  split <;> rfl

theorem comesFrom_fixedArgumentMarks (specs : List ArgSpec) (args : List Segment) :
    ComesFrom .argument (fixedArgumentMarks line k specs args) := by
  unfold fixedArgumentMarks
  split
  · split <;> simp [Line.markKeyword, Cause.origin]
  · refine ComesFrom.append_iff.2 ⟨.filterMap ?_ _, .filterMap ?_ _⟩
    · rintro ⟨spec, i⟩ m hm
      simp only [Option.mem_def, Option.ite_none_right_eq_some, Option.some.injEq] at hm
      rw [← hm.2]
      exact origin_missingCause k i
    · rintro ⟨arg, i⟩ m hm
      simp only [Option.mem_def] at hm
      split at hm
      · rw [← Option.some.inj hm]
        rfl
      · rw [Option.ite_none_left_eq_some, Option.some.injEq] at hm
        rw [← hm.2]
        rfl

theorem origin_of_parameterCause? {command : String} {parameter : Parameter} {value : List Char}
    {cause : Cause} (h : parameterCause? command parameter value = some cause) :
    cause.origin = .command := by
  unfold parameterCause? at h
  split at h
  · exact absurd h (by simp)
  · split at h
    · rw [← Option.some.inj h]
      rfl
    · rw [Option.ite_none_right_eq_some, Option.some.injEq] at h
      rw [← h.2]
      rfl

theorem comesFrom_valueMarks (command : String) (parameter : Parameter) (value : Segment) :
    ComesFrom .command (valueMarks line command parameter value) := by
  refine ComesFrom.append_iff.2 ⟨?_, fun m hm => ?_⟩
  · split <;> simp [Line.markSegment, Cause.origin]
  · obtain ⟨cause, hcause, rfl⟩ := Option.map_eq_some_iff.1 (Option.mem_toList.1 hm)
    exact origin_of_parameterCause? hcause

theorem comesFrom_parameterMarks (command : String) (name : Span) (parameters : List Parameter)
    (values : List Segment) :
    ComesFrom .command (parameterMarks line command name parameters values) := by
  induction parameters generalizing values with
  | nil =>
    rw [parameterMarks]
    exact .nil
  | cons parameter parameters ih =>
    cases values with
    | nil =>
      rw [parameterMarks]
      refine ComesFrom.append_iff.2 ⟨?_, ih []⟩
      split <;> simp [Cause.origin]
    | cons value values =>
      rw [parameterMarks]
      exact ComesFrom.append_iff.2 ⟨comesFrom_valueMarks command parameter value, ih values⟩

theorem comesFrom_commandMarks (catalog : Catalog) (args : List Segment) :
    ComesFrom .command (commandMarks catalog line args) := by
  unfold commandMarks
  split
  · exact .nil
  · split
    · exact .nil
    · split
      · exact .nil
      · refine ComesFrom.append_iff.2 ⟨?_, comesFrom_parameterMarks _ _ _ _⟩
        split <;> simp [Cause.origin]

theorem comesFrom_menuMarks (menu : Option MenuState) :
    ComesFrom .menu (MenuState.marks menu line k) := by
  unfold MenuState.marks
  split
  · intro m hm
    obtain ⟨cause, hcause, rfl⟩ := Option.map_eq_some_iff.1 (Option.mem_toList.1 hm)
    unfold MenuState.labelCause? at hcause
    split at hcause
    · rw [Option.ite_none_right_eq_some, Option.some.injEq] at hcause
      rw [← hcause.2]
      rfl
    · rw [Option.ite_none_left_eq_some, Option.some.injEq] at hcause
      rw [← hcause.2]
      rfl
    · exact absurd hcause (by simp)
  · exact .nil

/-! ## The code of a line -/

theorem comesFrom_metaMarks (line : Line) : ComesFrom .reference (metaMarks line) := by
  unfold metaMarks
  exact .map (fun _ => by rfl) _

theorem comesFrom_pageMarks (d : Declared) (line : Line) :
    ComesFrom .reference (pageMarks d line) := by
  refine .filterMap (fun hit m hm => ?_) _
  rw [Option.mem_def, Option.ite_none_right_eq_some, Option.some.injEq] at hm
  rw [← hm.2]
  rfl

theorem comesFrom_flagMarks (d : Declared) (line : Line) :
    ComesFrom .reference (flagMarks d line) := by
  refine .filterMap (fun hit m hm => ?_) _
  rw [Option.mem_def, Option.ite_none_right_eq_some, Option.some.injEq] at hm
  rw [← hm.2]
  rfl

theorem comesFrom_unknownCommandMarks (d : Declared) (line : Line) :
    ComesFrom .listing (unknownCommandMarks d line) := by
  refine .filterMap (fun hit m hm => ?_) _
  rw [Option.mem_def, Option.ite_none_left_eq_some, Option.some.injEq] at hm
  rw [← hm.2]
  rfl

theorem comesFrom_joinMarks (line : Line) : ComesFrom .join (joinMarks line) := by
  unfold joinMarks firstMark
  exact ComesFrom.append_iff.2 ⟨.map (fun _ => by rfl) _, .map (fun _ => by rfl) _⟩

theorem comesFrom_placementMarks (line : Line) : ComesFrom .placement (placementMarks line) := by
  have hif : ∀ {p : Prop} [Decidable p] {f : Hit → Mark} (hits : List Hit),
      (∀ hit, (f hit).cause.origin = .placement) →
        ComesFrom .placement (if p then [] else hits.map f) := by
    intro p _ f hits hf
    split
    · exact .nil
    · exact .map hf hits
  simp only [placementMarks, ComesFrom.append_iff]
  exact ⟨⟨⟨hif _ fun _ => rfl, hif _ fun _ => rfl⟩, hif _ fun _ => rfl⟩, hif _ fun _ => rfl⟩

theorem comesFrom_negationMarksIn (ws : List Segment) :
    ComesFrom .negation (negationMarksIn line ws) := by
  induction ws with
  | nil =>
    rw [negationMarksIn]
    exact .nil
  | cons w ws ih =>
    rw [negationMarksIn]
    refine ComesFrom.append_iff.2 ⟨?_, ih⟩
    split <;> simp [Cause.origin]

theorem comesFrom_negationMarks (line : Line) : ComesFrom .negation (negationMarks line) :=
  comesFrom_negationMarksIn _

end

/-! ## Telling marks apart -/

section

variable {d : Declared} {s : CheckState} {line : Line} {m : Mark}

theorem mem_lineMarks_iff :
    m ∈ lineMarks d s line ↔ line.isCode = true ∧ (m ∈ keywordMarks d s line ∨
      m ∈ referenceMarks d line ∨ m ∈ joinMarks line ∨ m ∈ placementMarks line ∨
        m ∈ negationMarks line) := by
  simp only [lineMarks, codeMarks, List.mem_ite_nil_right, List.mem_append, or_assoc]

theorem origin_of_mem_keywordMarks (h : m ∈ keywordMarks d s line) :
    m.cause.origin ∈ [Origin.previous, .argument, .command, .menu] := by
  unfold keywordMarks at h
  split at h
  next => exact absurd h (by simp)
  next k _ =>
    rw [List.mem_append, List.mem_append] at h
    rcases h with (h | h) | h
    · simp [comesFrom_previousMarks _ m h]
    · unfold argumentMarks at h
      split at h
      · simp [comesFrom_fixedArgumentMarks _ _ m h]
      · simp [comesFrom_commandMarks _ _ m h]
    · simp [comesFrom_menuMarks _ m h]

theorem origin_of_mem_referenceMarks (h : m ∈ referenceMarks d line) :
    m.cause.origin = .reference ∨ m.cause.origin = .listing ∧ m ∈ unknownCommandMarks d line := by
  rw [referenceMarks, List.mem_append, List.mem_append] at h
  rcases h with (h | h) | h
  · split at h
    · exact Or.inl (comesFrom_metaMarks line m h)
    · exact Or.inl (comesFrom_pageMarks d line m h)
  · rw [List.mem_ite_nil_left] at h
    exact Or.inl (comesFrom_flagMarks d line m h.2)
  · rw [List.mem_ite_nil_left] at h
    exact Or.inr ⟨comesFrom_unknownCommandMarks d line m h.2, h.2⟩

/-- **Marks on the arguments of a command** are put on EXEC lines. -/
theorem mem_commandMarks_of_origin (h : m ∈ lineMarks d s line)
    (horigin : m.cause.origin = .command) :
    line.keyword? = some .exec ∧ m ∈ commandMarks d.catalog line (line.arguments .exec) := by
  obtain ⟨-, h | h | h | h | h⟩ := mem_lineMarks_iff.1 h
  · unfold keywordMarks at h
    split at h
    next => exact absurd h (by simp)
    next k hk =>
      rw [List.mem_append, List.mem_append] at h
      rcases h with (h | h) | h
      · exact absurd h ((comesFrom_previousMarks _).notMem (by simp [horigin]))
      · -- Of all keywords, only EXEC leaves its arguments to the catalog.
        unfold argumentMarks at h
        cases k with
        | exec => exact ⟨hk, h⟩
        | _ => exact absurd h ((comesFrom_fixedArgumentMarks _ _).notMem (by simp [horigin]))
      · exact absurd h ((comesFrom_menuMarks _).notMem (by simp [horigin]))
  · rcases origin_of_mem_referenceMarks h with h | ⟨h, -⟩ <;> simp [horigin] at h
  · exact absurd h ((comesFrom_joinMarks line).notMem (by simp [horigin]))
  · exact absurd h ((comesFrom_placementMarks line).notMem (by simp [horigin]))
  · exact absurd h ((comesFrom_negationMarks line).notMem (by simp [horigin]))

/-- **Marks on commands that are not listed.** -/
theorem mem_unknownCommandMarks_of_origin (h : m ∈ lineMarks d s line)
    (horigin : m.cause.origin = .listing) : m ∈ unknownCommandMarks d line := by
  obtain ⟨-, h | h | h | h | h⟩ := mem_lineMarks_iff.1 h
  · exact absurd (origin_of_mem_keywordMarks h) (by simp [horigin])
  · rcases origin_of_mem_referenceMarks h with h | ⟨-, h⟩
    · simp [horigin] at h
    · exact h
  · exact absurd h ((comesFrom_joinMarks line).notMem (by simp [horigin]))
  · exact absurd h ((comesFrom_placementMarks line).notMem (by simp [horigin]))
  · exact absurd h ((comesFrom_negationMarks line).notMem (by simp [horigin]))

/-- **Marks on joined clauses.** -/
theorem mem_joinMarks_of_origin (h : m ∈ lineMarks d s line) (horigin : m.cause.origin = .join) :
    m ∈ joinMarks line := by
  obtain ⟨-, h | h | h | h | h⟩ := mem_lineMarks_iff.1 h
  · exact absurd (origin_of_mem_keywordMarks h) (by simp [horigin])
  · rcases origin_of_mem_referenceMarks h with h | ⟨h, -⟩ <;> simp [horigin] at h
  · exact h
  · exact absurd h ((comesFrom_placementMarks line).notMem (by simp [horigin]))
  · exact absurd h ((comesFrom_negationMarks line).notMem (by simp [horigin]))

end

end Gamebook
