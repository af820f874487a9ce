import Gamebook.Proofs.Check.Report
import Gamebook.Proofs.Place.Selection

/-!
Gamebook.Proofs.Place.Mark — what stands where a mark is put.

`Cause.StandsOn` says for each cause which words a mark with this cause can stand on: the keyword
that is misplaced, the name that is declared nowhere, the argument that does not have its shape.
Every check puts its marks on such words of the line that it looks at. There is one lemma for each
check, and `exists_line_of_mem_allMarks` puts them together. A mark on a word has columns
(`Mark.OnWord.exists_finding?`), so no mark is dropped on the way to the report.
-/

namespace Gamebook

open Text

/-- The words that a mark with this cause can stand on. The finding about the first line has a fixed
place, so no mark is put for it. -/
def Cause.StandsOn : Cause → List Char → Prop
  | noHeader, _ => False
  | repeatedHeader, w => w = Keyword.define.letters
  | duplicate kind name, w => w = kind.sigil :: name.toList
  | misplaced k _, w => w = k.letters
  | takesNoArguments k, w => w = k.letters
  | missingName, w => w = Keyword.define.letters
  | missingArgument k _, w => w = k.letters
  | tooManyArguments _, _ => True
  | badArgument _ _ kind, w => kind.accepts w = false
  | commandTakesAtMost command _, w =>
    w = '#' :: command.toList ∧ ∀ c ∈ command.toList, isCommandChar c = true
  | commandMissing command _, w =>
    w = '#' :: command.toList ∧ ∀ c ∈ command.toList, isCommandChar c = true
  | commandArgumentShape, w => ∀ form : ValueForm, form.fits w = false
  | commandArgumentForm _ form, w => form.fits w = false
  | notPreset text _ _, w => w = text.toList ∧ ValueForm.text.fits w = true
  | nothingToRepeat, w => w = Special.same.letters
  | noTimeLimit, w => w = Special.timeup.letters
  | metaDeclared target, w => w = target.toList ∧ ∃ t : MetaTarget, w = '@' :: '^' :: t.letters
  | undeclared kind name, w => w = kind.sigil :: name.toList
  | unknownCommand name, w => w = '#' :: name.toList
  | joinedConditions, w => ∃ k ∈ ClauseKind.conditions, k.opening <+: w
  | joinedEffects, w => ∃ k ∈ ClauseKind.effects, k.opening <+: w
  | misplacedTime, w => ∃ t : TimeLimit, w = TimeLimit.sigil ++ t.letters
  | misplacedSpecial label, w => w = label.toList ∧ ∃ m : Special, w = m.letters
  | misplacedCondition, w => ∃ k ∈ ClauseKind.conditions, w = k.opening
  | misplacedEffect, w => ∃ k ∈ ClauseKind.effects, w = k.opening
  | danglingNegation, w => w = negation

/-- The mark stands on a word of its line that goes with its cause. -/
def Mark.OnWord (m : Mark) : Prop :=
  ∃ w, w ≠ [] ∧ m.span.Selects m.line.raw w ∧ m.cause.StandsOn w

/-- A mark on a word has columns, and the word stands between them. -/
theorem Mark.OnWord.exists_finding? {m : Mark} (h : m.OnWord) :
    ∃ columns w, m.finding? = some ⟨m.line.number, columns, m.cause⟩ ∧
      columns.Fits m.line.raw ∧ columns.select m.line.raw = w ∧ m.cause.StandsOn w := by
  obtain ⟨w, hne, hselects, hstands⟩ := h
  obtain ⟨columns, hcolumns, hfits, hselect⟩ := hselects.exists_columns hne
  refine ⟨columns, w, ?_, hfits, hselect, hstands⟩
  rw [Mark.finding?, hcolumns, Option.map_some]

variable {n : Nat} {raw : List Char} {k : Keyword} {cause : Cause} {m : Mark}

/-! ## Places of marks -/

theorem onWord_markKeyword (hk : (Line.ofRaw n raw).keyword? = some k)
    (hcause : cause.StandsOn k.letters) : ((Line.ofRaw n raw).markKeyword k cause).OnWord :=
  ⟨k.letters, k.letters_ne_nil, Line.selects_keywordSpan hk, hcause⟩

theorem onWord_markSegment (hk : (Line.ofRaw n raw).keyword? = some k) {a : Segment}
    (ha : a ∈ (Line.ofRaw n raw).arguments k) (hcause : cause.StandsOn a.text) :
    ((Line.ofRaw n raw).markSegment a cause).OnWord := by
  obtain ⟨hselects, hne⟩ := Line.selects_of_mem_arguments hk ha
  exact ⟨a.text, hne, hselects, hcause⟩

/-- A sigil and a name at the start of an argument. -/
theorem onWord_name (hk : (Line.ofRaw n raw).keyword? = some k) {a : Segment}
    (ha : a ∈ (Line.ofRaw n raw).arguments k) {sigil : Char} {name v : List Char}
    (htext : a.text = sigil :: (name ++ v)) (hsize : sigil.utf8Size = 1)
    (hcause : cause.StandsOn (sigil :: name)) :
    Mark.OnWord ⟨Line.ofRaw n raw, ⟨a.start, a.start + 1 + byteLength name⟩, cause⟩ := by
  obtain ⟨hselects, -⟩ := Line.selects_of_mem_arguments hk ha
  rw [htext, ← List.cons_append] at hselects
  have hstop : a.start + 1 + byteLength name = a.start + byteLength (sigil :: name) := by
    rw [byteLength_cons, hsize, Nat.add_assoc]
  refine ⟨sigil :: name, by simp, ?_, hcause⟩
  rw [hstop]
  exact Span.Selects.of_prefix hselects

theorem onWord_markCaptured {line : Line} {p : Pattern} {hit : Hit} (h : hit ∈ line.hits p)
    (hcause : p.Reads hit.lead hit.body → cause.StandsOn hit.body) :
    (line.markCaptured hit cause).OnWord := by
  have hreads := (Pattern.reads_of_mem_scan h).1
  exact ⟨hit.body, hreads.body_ne_nil, Line.selects_captured h, hcause hreads⟩

theorem onWord_markHit {line : Line} {p : Pattern} {hit : Hit} (h : hit ∈ line.hits p)
    (hp : p ∉ Pattern.isolated)
    (hcause : p.Reads hit.lead hit.body → cause.StandsOn (hit.lead ++ hit.body)) :
    (line.markHit hit cause).OnWord := by
  have hreads := (Pattern.reads_of_mem_scan h).1
  exact ⟨hit.lead ++ hit.body, List.append_ne_nil_of_right_ne_nil _ hreads.body_ne_nil,
    Line.selects_whole h hp, hcause hreads⟩

/-! ## Declarations -/

/-- The name stands behind its sigil, at the start of the word. -/
theorem declaredName?_eq_some {kind : NameKind} {word name : List Char}
    (h : declaredName? kind word = some name) : ∃ v, word = kind.sigil :: (name ++ v) := by
  unfold declaredName? at h
  split at h
  next c rest =>
    obtain ⟨hc, hname⟩ := Option.ite_none_right_eq_some.1 h
    rw [← Option.some.inj hname, hc.1]
    exact ⟨rest.dropWhile isWordChar, by rw [Pattern.wordRun_append_dropWhile]⟩
  next => exact absurd h (by simp)

theorem onWord_of_mem_declarations {d : Declaration} (h : d ∈ (Line.ofRaw n raw).declarations) :
    Mark.OnWord ⟨d.line, d.span, .duplicate d.kind d.name⟩ ∧ d.line = Line.ofRaw n raw := by
  have hargument : ∀ {kind : NameKind} {k : Keyword} {a : Segment},
      (Line.ofRaw n raw).keyword? = some k → a ∈ (Line.ofRaw n raw).arguments k →
        Declaration.ofArgument? (Line.ofRaw n raw) kind a = some d →
          Mark.OnWord ⟨d.line, d.span, .duplicate d.kind d.name⟩ ∧ d.line = Line.ofRaw n raw := by
    intro kind k a hk ha hd
    obtain ⟨name, hname, rfl⟩ := Option.map_eq_some_iff.1 hd
    obtain ⟨v, htext⟩ := declaredName?_eq_some hname
    refine ⟨onWord_name hk ha htext (by cases kind <;> rfl) ?_, rfl⟩
    show kind.sigil :: name = kind.sigil :: (String.ofList name).toList
    rw [String.toList_ofList]
  unfold Line.declarations at h
  split at h
  next hk =>
    obtain ⟨a, ha, hd⟩ := List.mem_filterMap.1 h
    exact hargument hk (List.mem_of_mem_take ha) hd
  next hk =>
    obtain ⟨a, ha, hd⟩ := List.mem_filterMap.1 h
    exact hargument hk ha hd
  next => exact absurd h (by simp)

theorem exists_declaration_of_mem_duplicateMarks : ∀ {ds : List Declaration}
    {seen : List (NameKind × String)}, m ∈ duplicateMarks seen ds →
      ∃ d ∈ ds, m = ⟨d.line, d.span, .duplicate d.kind d.name⟩
  | [], _, h => by simp [duplicateMarks] at h
  | d :: ds, seen, h => by
      have hrest : ∀ {seen : List (NameKind × String)}, m ∈ duplicateMarks seen ds →
          ∃ d' ∈ d :: ds, m = ⟨d'.line, d'.span, .duplicate d'.kind d'.name⟩ := by
        intro seen hm
        obtain ⟨d', hd', hm⟩ := exists_declaration_of_mem_duplicateMarks hm
        exact ⟨d', List.mem_cons_of_mem _ hd', hm⟩
      rw [duplicateMarks] at h
      split at h
      · rcases List.mem_cons.1 h with hm | hm
        · exact ⟨d, List.mem_cons_self, hm⟩
        · exact hrest hm
      · exact hrest h

/-! ## Arguments -/

theorem onWord_of_mem_previousMarks {previous : Option Line}
    (hk : (Line.ofRaw n raw).keyword? = some k)
    (h : m ∈ previousMarks previous (Line.ofRaw n raw) k) : m.OnWord := by
  unfold previousMarks at h
  split at h
  · exact absurd h (by simp)
  · obtain ⟨-, hm⟩ := List.mem_ite_nil_left.1 h
    rw [List.mem_singleton.1 hm]
    exact onWord_markKeyword hk rfl

theorem standsOn_missingCause (k : Keyword) (i : Nat) : (missingCause k i).StandsOn k.letters := by
  unfold missingCause
  split
  next h => rw [h.1]; rfl
  next => rfl

theorem onWord_of_mem_fixedArgumentMarks {specs : List ArgSpec}
    (hk : (Line.ofRaw n raw).keyword? = some k)
    (h : m ∈ fixedArgumentMarks (Line.ofRaw n raw) k specs ((Line.ofRaw n raw).arguments k)) :
    m.OnWord := by
  unfold fixedArgumentMarks at h
  split at h
  · obtain ⟨-, hm⟩ := List.mem_ite_nil_left.1 h
    rw [List.mem_singleton.1 hm]
    exact onWord_markKeyword hk rfl
  · rcases List.mem_append.1 h with h | h
    · obtain ⟨⟨spec, i⟩, -, hif⟩ := List.mem_filterMap.1 h
      obtain ⟨-, hm⟩ := Option.ite_none_right_eq_some.1 hif
      rw [← Option.some.inj hm]
      exact onWord_markKeyword hk (standsOn_missingCause k i)
    · obtain ⟨⟨arg, i⟩, hzip, hm⟩ := List.mem_filterMap.1 h
      have harg := List.mem_of_getElem? (List.mk_mem_zipIdx_iff_getElem?.1 hzip)
      simp only at hm
      split at hm
      · rw [← Option.some.inj hm]
        exact onWord_markSegment hk harg trivial
      · obtain ⟨haccepts, hm⟩ := Option.ite_none_left_eq_some.1 hm
        rw [← Option.some.inj hm]
        exact onWord_markSegment hk harg ((Bool.not_eq_true _).mp haccepts)

/-! ## Commands -/

theorem standsOn_of_parameterCause? {command : String} {parameter : Parameter}
    {value : List Char} (h : parameterCause? command parameter value = some cause) :
    cause.StandsOn value := by
  unfold parameterCause? at h
  split at h
  · exact absurd h (by simp)
  · split at h
    next hfits =>
      rw [← Option.some.inj h]
      exact (Bool.not_eq_true' _).mp hfits
    next hfits =>
      obtain ⟨hpreset, hcause⟩ := Option.ite_none_right_eq_some.1 h
      rw [← Option.some.inj hcause]
      refine ⟨String.toList_ofList.symm, ?_⟩
      rw [← hpreset.1]
      simpa using hfits

theorem onWord_of_mem_valueMarks {command : String} {parameter : Parameter} {value : Segment}
    (hk : (Line.ofRaw n raw).keyword? = some k) (hvalue : value ∈ (Line.ofRaw n raw).arguments k)
    (h : m ∈ valueMarks (Line.ofRaw n raw) command parameter value) : m.OnWord := by
  rw [valueMarks, List.mem_append, Option.mem_toList, Option.map_eq_some_iff] at h
  rcases h with h | ⟨cause, hcause, rfl⟩
  · obtain ⟨hshape, hm⟩ := List.mem_ite_nil_left.1 h
    rw [List.mem_singleton.1 hm]
    refine onWord_markSegment hk hvalue fun form => ?_
    have hform : form ∈ ValueForm.all := by cases form <;> decide
    by_contra hfits
    exact hshape (List.any_eq_true.2 ⟨form, hform, (Bool.not_eq_false _).mp hfits⟩)
  · exact onWord_markSegment hk hvalue (standsOn_of_parameterCause? hcause)

theorem onWord_of_mem_parameterMarks {command : String} {name : Span}
    (hk : (Line.ofRaw n raw).keyword? = some k)
    (hname : ∀ {parameter : String},
      Mark.OnWord ⟨Line.ofRaw n raw, name, .commandMissing command parameter⟩) :
    ∀ {parameters : List Parameter} {values : List Segment},
      (∀ v ∈ values, v ∈ (Line.ofRaw n raw).arguments k) →
        m ∈ parameterMarks (Line.ofRaw n raw) command name parameters values → m.OnWord
  | [], _, _, h => by simp [parameterMarks] at h
  | parameter :: parameters, value :: values, hvalues, h => by
      rw [parameterMarks, List.mem_append] at h
      rcases h with h | h
      · exact onWord_of_mem_valueMarks hk (hvalues value List.mem_cons_self) h
      · exact onWord_of_mem_parameterMarks hk hname
          (fun v hv => hvalues v (List.mem_cons_of_mem _ hv)) h
  | parameter :: parameters, [], hvalues, h => by
      rw [parameterMarks, List.mem_append] at h
      rcases h with h | h
      · obtain ⟨-, hm⟩ := List.mem_ite_nil_right.1 h
        rw [List.mem_singleton.1 hm]
        exact hname
      · exact onWord_of_mem_parameterMarks hk hname hvalues h

/-- The name stands behind `#`, at the start of the word, and it consists of command characters. -/
theorem commandName?_eq_some {word name : List Char} (h : commandName? word = some name) :
    (∃ v, word = '#' :: (name ++ v)) ∧ ∀ c ∈ name, isCommandChar c = true := by
  unfold commandName? at h
  split at h
  next rest =>
    obtain ⟨-, hname⟩ := Option.ite_none_left_eq_some.1 h
    rw [← Option.some.inj hname]
    refine ⟨⟨rest.dropWhile isCommandChar, ?_⟩, fun c hc => List.mem_takeWhile_imp hc⟩
    rw [List.takeWhile_append_dropWhile]
  next => exact absurd h (by simp)

theorem onWord_of_mem_commandMarks {catalog : Catalog} (hk : (Line.ofRaw n raw).keyword? = some k)
    (h : m ∈ commandMarks catalog (Line.ofRaw n raw) ((Line.ofRaw n raw).arguments k)) :
    m.OnWord := by
  unfold commandMarks at h
  split at h
  · exact absurd h (by simp)
  next first values hargs =>
    have hfirst : first ∈ (Line.ofRaw n raw).arguments k := by
      rw [hargs]
      exact List.mem_cons_self
    split at h
    · exact absurd h (by simp)
    next name hname =>
      obtain ⟨⟨v, htext⟩, hchars⟩ := commandName?_eq_some hname
      have hmark : ∀ {cause : Cause}, cause.StandsOn ('#' :: name) →
          Mark.OnWord ⟨Line.ofRaw n raw,
            ⟨first.start, first.start + 1 + byteLength name⟩, cause⟩ :=
        fun hcause => onWord_name hk hfirst htext rfl hcause
      have hstands : '#' :: name = '#' :: (String.ofList name).toList ∧
          ∀ c ∈ (String.ofList name).toList, isCommandChar c = true := by
        rw [String.toList_ofList]
        exact ⟨rfl, hchars⟩
      split at h
      · exact absurd h (by simp)
      · rw [entryMarks, List.mem_append] at h
        rcases h with h | h
        · obtain ⟨-, hm⟩ := List.mem_ite_nil_right.1 h
          rw [List.mem_singleton.1 hm]
          exact hmark hstands
        · refine onWord_of_mem_parameterMarks hk (fun {parameter} => hmark hstands) ?_ h
          intro v hv
          rw [hargs]
          exact List.mem_cons_of_mem _ hv

theorem onWord_of_mem_argumentMarks {catalog : Catalog}
    (hk : (Line.ofRaw n raw).keyword? = some k)
    (h : m ∈ argumentMarks catalog (Line.ofRaw n raw) k) : m.OnWord := by
  unfold argumentMarks at h
  split at h
  · exact onWord_of_mem_fixedArgumentMarks hk h
  · exact onWord_of_mem_commandMarks hk h

/-! ## Menus -/

theorem standsOn_of_labelCause? {state : MenuState} {label : List Char}
    (h : MenuState.labelCause? state label = some cause) : cause.StandsOn label := by
  unfold MenuState.labelCause? at h
  split at h
  next hlabel =>
    obtain ⟨-, hcause⟩ := Option.ite_none_right_eq_some.1 h
    rw [← Option.some.inj hcause]
    exact Special.ofWord?_eq_some_iff.1 hlabel
  next hlabel =>
    obtain ⟨-, hcause⟩ := Option.ite_none_left_eq_some.1 h
    rw [← Option.some.inj hcause]
    exact Special.ofWord?_eq_some_iff.1 hlabel
  next => exact absurd h (by simp)

theorem onWord_of_mem_menuMarks {menu : Option MenuState}
    (hk : (Line.ofRaw n raw).keyword? = some k)
    (h : m ∈ MenuState.marks menu (Line.ofRaw n raw) k) : m.OnWord := by
  unfold MenuState.marks at h
  split at h
  next label rest hargs =>
    rw [Option.mem_toList, Option.map_eq_some_iff] at h
    obtain ⟨cause, hcause, rfl⟩ := h
    refine onWord_markSegment hk ?_ (standsOn_of_labelCause? hcause)
    rw [hargs]
    exact List.mem_cons_self
  next => exact absurd h (by simp)

/-! ## The code of a line -/

theorem onWord_of_mem_referenceMarks {d : Declared} {line : Line} (h : m ∈ referenceMarks d line) :
    m.OnWord := by
  rw [referenceMarks, List.mem_append, List.mem_append] at h
  rcases h with (h | h) | h
  · split at h
    · obtain ⟨hit, hhit, rfl⟩ := List.mem_map.1 h
      refine onWord_markHit hhit (by decide) fun hreads => ?_
      obtain ⟨hlead, t, hbody⟩ := hreads
      refine ⟨String.toList_ofList.symm, t, ?_⟩
      rw [hlead, hbody]
      rfl
    · obtain ⟨hit, hhit, hif⟩ := List.mem_filterMap.1 h
      obtain ⟨hpage, hm⟩ := Option.ite_none_right_eq_some.1 hif
      rw [← Option.some.inj hm]
      refine onWord_markHit hhit (by decide) fun _ => ?_
      show hit.lead ++ hit.body = '@' :: (String.ofList hit.body).toList
      rw [hpage.1, String.toList_ofList]
      rfl
  · obtain ⟨hit, hhit, hif⟩ := List.mem_filterMap.1 (List.mem_ite_nil_left.1 h).2
    obtain ⟨-, hm⟩ := Option.ite_none_right_eq_some.1 hif
    rw [← Option.some.inj hm]
    refine onWord_markHit hhit (by decide) fun hreads => ?_
    show hit.lead ++ hit.body = '$' :: (String.ofList hit.body).toList
    rw [hreads.1, String.toList_ofList]
    rfl
  · obtain ⟨hit, hhit, hif⟩ := List.mem_filterMap.1 (List.mem_ite_nil_left.1 h).2
    obtain ⟨-, hm⟩ := Option.ite_none_left_eq_some.1 hif
    rw [← Option.some.inj hm]
    refine onWord_markHit hhit (by decide) fun hreads => ?_
    show hit.lead ++ hit.body = '#' :: (String.ofList hit.body).toList
    rw [hreads.1, String.toList_ofList]
    rfl

theorem onWord_of_mem_joinMarks {line : Line} (h : m ∈ joinMarks line) : m.OnWord := by
  rw [joinMarks, List.mem_append] at h
  rcases h with h | h
  · obtain ⟨hit, hhit, rfl⟩ := List.mem_map.1 h
    refine onWord_markCaptured (List.mem_of_mem_take hhit) fun hreads => ?_
    obtain ⟨-, k, hk, tail, hbody, -⟩ := hreads
    exact ⟨k, hk, tail, hbody.symm⟩
  · obtain ⟨hit, hhit, rfl⟩ := List.mem_map.1 h
    refine onWord_markCaptured (List.mem_of_mem_take hhit) fun hreads => ?_
    obtain ⟨-, k, hk, tail, hbody, -⟩ := hreads
    exact ⟨k, hk, tail, hbody.symm⟩

theorem onWord_of_mem_placementMarks {line : Line} (h : m ∈ placementMarks line) : m.OnWord := by
  rw [placementMarks, List.mem_append, List.mem_append, List.mem_append] at h
  rcases h with ((h | h) | h) | h
  · obtain ⟨hit, hhit, rfl⟩ := List.mem_map.1 (List.mem_ite_nil_left.1 h).2
    refine onWord_markHit hhit (by decide) fun hreads => ?_
    obtain ⟨hlead, t, hbody⟩ := hreads
    exact ⟨t, by rw [hlead, hbody]⟩
  · obtain ⟨hit, hhit, rfl⟩ := List.mem_map.1 (List.mem_ite_nil_left.1 h).2
    refine onWord_markHit hhit (by decide) fun hreads => ?_
    obtain ⟨label, hlead, hbody⟩ := hreads
    refine ⟨String.toList_ofList.symm, label, ?_⟩
    rw [hlead, hbody, Pattern.append_drop_one_letters]
  · obtain ⟨hit, hhit, rfl⟩ := List.mem_map.1 (List.mem_ite_nil_left.1 h).2
    exact onWord_markCaptured hhit fun hreads => hreads.2
  · obtain ⟨hit, hhit, rfl⟩ := List.mem_map.1 (List.mem_ite_nil_left.1 h).2
    exact onWord_markCaptured hhit fun hreads => hreads.2

/-- A negation stands at the start of a word of the code. -/
theorem exists_append_of_isDangling {word : List Char} {behind : List Segment}
    (h : isDangling word behind = true) : ∃ r, word = negation ++ r := by
  cases hword : dropPrefix? negation word with
  | some r => exact ⟨r, dropPrefix?_eq_some_iff.1 hword⟩
  | none =>
    unfold isDangling at h
    rw [hword] at h
    exact absurd h (by simp)

theorem onWord_of_mem_negationMarksIn {line : Line} : ∀ {ws : List Segment},
    (∀ w ∈ ws, w ∈ segments line.code) → m ∈ negationMarksIn line ws → m.OnWord
  | [], _, h => by simp [negationMarksIn] at h
  | word :: behind, hws, h => by
      rw [negationMarksIn, List.mem_append] at h
      rcases h with h | h
      · obtain ⟨hdangling, hm⟩ := List.mem_ite_nil_right.1 h
        rw [List.mem_singleton.1 hm]
        obtain ⟨v, hv⟩ := exists_append_of_isDangling hdangling
        obtain ⟨p, r, hcode, hstart, -, -, -⟩ :=
          exists_append_of_mem_segmentsAt (hws word List.mem_cons_self)
        refine ⟨negation, by decide, ?_, rfl⟩
        rw [Nat.zero_add] at hstart
        show Span.Selects line.raw ⟨word.start, word.start + byteLength negation⟩ negation
        rw [hstart]
        refine Line.selects_of_code ⟨_, v ++ r, ?_, rfl⟩ (by decide) (by decide)
        rw [hcode, hv]
        simp only [List.append_assoc]
      · exact onWord_of_mem_negationMarksIn (fun w hw => hws w (List.mem_cons_of_mem _ hw)) h

theorem onWord_of_mem_codeMarks {d : Declared} {line : Line} (h : m ∈ codeMarks d line) :
    m.OnWord := by
  rw [codeMarks, List.mem_append, List.mem_append, List.mem_append] at h
  rcases h with ((h | h) | h) | h
  · exact onWord_of_mem_referenceMarks h
  · exact onWord_of_mem_joinMarks h
  · exact onWord_of_mem_placementMarks h
  · exact onWord_of_mem_negationMarksIn (fun w hw => hw) h

/-! ## All marks -/

theorem onWord_of_mem_lineMarks {d : Declared} {s : CheckState}
    (h : m ∈ lineMarks d s (Line.ofRaw n raw)) : m.OnWord := by
  rcases List.mem_append.1 (List.mem_ite_nil_right.1 h).2 with h | h
  · unfold keywordMarks at h
    split at h
    · exact absurd h (by simp)
    next k hk =>
      rw [List.mem_append, List.mem_append] at h
      rcases h with (h | h) | h
      · exact onWord_of_mem_previousMarks hk h
      · exact onWord_of_mem_argumentMarks hk h
      · exact onWord_of_mem_menuMarks hk h
  · exact onWord_of_mem_codeMarks h

/-- **Every mark stands on a word of a line of the text** that goes with its cause. -/
theorem exists_line_of_mem_allMarks {catalog : Catalog} {text : List Char}
    (h : m ∈ allMarks catalog (Line.ofText text)) :
    m.OnWord ∧ ∃ n raw, (n, raw) ∈ numberedLines text ∧ m.line = Line.ofRaw n raw := by
  rw [allMarks, List.mem_append, List.mem_append] at h
  rcases h with (h | h) | h
  · obtain ⟨line, hline, rfl⟩ := List.mem_map.1 h
    obtain ⟨hmem, hk⟩ := List.mem_filter.1 (List.mem_of_mem_drop hline)
    obtain ⟨n, raw, hnumbered, rfl⟩ := Line.mem_ofText.1 hmem
    exact ⟨onWord_markKeyword (by simpa using hk) rfl, n, raw, hnumbered, rfl⟩
  · obtain ⟨d, hd, rfl⟩ := exists_declaration_of_mem_duplicateMarks h
    obtain ⟨line, hline, hd⟩ := List.mem_flatMap.1 hd
    obtain ⟨n, raw, hnumbered, rfl⟩ := Line.mem_ofText.1 hline
    obtain ⟨honWord, hdline⟩ := onWord_of_mem_declarations hd
    exact ⟨honWord, n, raw, hnumbered, hdline⟩
  · obtain ⟨before, line, after, hlines, hm⟩ := mem_marksFrom.1 h
    have hline : line ∈ Line.ofText text := by
      rw [hlines]
      simp
    obtain ⟨n, raw, hnumbered, rfl⟩ := Line.mem_ofText.1 hline
    exact ⟨onWord_of_mem_lineMarks hm, n, raw, hnumbered, line_eq_of_mem_lineMarks hm⟩

/-- **No mark is left out of the report.** -/
theorem exists_diagnostic_of_mem_allMarks {catalog : Catalog} {text : String}
    (h : m ∈ allMarks catalog (Line.ofText text.toList)) :
    ∃ d ∈ diagnostics catalog text,
      d.line = m.line.number ∧ d.severity = m.cause.severity ∧ d.message = m.cause.message := by
  obtain ⟨columns, w, hfinding, -⟩ := (exists_line_of_mem_allMarks h).1.exists_finding?
  exact ⟨_, List.mem_map_of_mem (mem_findings.2 (Or.inr ⟨m, h, hfinding⟩)), rfl, rfl, rfl⟩

end Gamebook
