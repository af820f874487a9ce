import Gamebook.Proofs.Place.Mark
import Gamebook.Proofs.Simulation.Menu

/-!
Gamebook.Proofs.Simulation.Report — what a report says about a menu, and what the reader makes of it.

Three messages hang on the open menu: that an IS line has none, that `/SAME` has nothing to repeat,
and that `/TIMEUP` has no time limit. No other check says the same, so a message on a line can be
traced back to the state in front of that line (`reported_iff`), and from there, as the two machines
are in step, to the menu of the reader.

`menu_simulation` is the result: on a page, the three messages appear exactly where the reader opens
a menu by itself, reads the first option of a menu, and reads an option of a menu without a time
limit.
-/

namespace Gamebook

open Text

/-! ## Messages -/

theorem ne_of_mem_toList {a b : String} {c : Char} (ha : c ∈ a.toList) (hb : c ∉ b.toList) :
    a ≠ b := by
  rintro rfl
  exact hb ha

theorem mem_literal {c : Char} {cs : List Char} (h : c ∈ cs) : c ∈ (String.ofList cs).toList := by
  rwa [String.toList_ofList]

theorem mem_append_left {a b : String} {c : Char} (h : c ∈ a.toList) : c ∈ (a ++ b).toList := by
  rw [String.toList_append]
  exact List.mem_append_left _ h

theorem mem_append_right {a b : String} {c : Char} (h : c ∈ b.toList) : c ∈ (a ++ b).toList := by
  rw [String.toList_append]
  exact List.mem_append_right _ h

/-- The message for an IS line without a menu. -/
def orphanMessage : String := "IS must follow CHOICE or IS"

/-- The message for `/SAME` on a first option. -/
def sameMessage : String := "/SAME has no preceding option to repeat"

/-- The message for `/TIMEUP` without a time limit. -/
def timeupMessage : String := "/TIMEUP requires a CHOICE with a time: limit"

namespace Cause

/-- No error that lies in the line itself says that a menu is missing: a character of its message
tells it apart. -/
theorem isContextual_of_orphanMessage {c : Cause} (hs : c.severity = .error)
    (hm : c.message = orphanMessage) : c.isContextual = true := by
  have hother : ∀ d ∈ ['D', 'a', 'b', 'd', 'q', 'y'], d ∉ orphanMessage.toList := by
    rw [orphanMessage, String.toList_ofList]
    decide
  have hne : ∀ d ∈ ['D', 'a', 'b', 'd', 'q', 'y'], d ∈ c.message.toList → c.isContextual = true :=
    fun d hd hmem => absurd hm (ne_of_mem_toList hmem (hother d hd))
  cases c with
  | noHeader => exact hne 'D' (by decide) (mem_literal (by decide))
  | repeatedHeader => exact hne 'D' (by decide) (mem_literal (by decide))
  | duplicate kind name =>
    exact hne 'd' (by decide) (mem_append_left (mem_append_right (mem_literal (by decide))))
  | misplaced keyword follows => rfl
  | missingName => exact hne 'D' (by decide) (mem_literal (by decide))
  | missingArgument keyword place =>
    exact hne 'q' (by decide) (mem_append_left (mem_append_right (mem_literal (by decide))))
  | tooManyArguments keyword =>
    exact hne 'a' (by decide) (mem_append_left (mem_literal (by decide)))
  | badArgument keyword place kind =>
    have hargument : 'a' ∈ (badArgumentMessage.argument keyword place).toList :=
      mem_append_left (mem_append_left (mem_append_left (mem_literal (by decide))))
    cases kind with
    | time => exact hne 'y' (by decide) (mem_append_right (mem_literal (by decide)))
    | page => exact hne 'a' (by decide) (mem_append_left hargument)
    | textOrSpecial => exact hne 'a' (by decide) (mem_append_left hargument)
    | text => exact hne 'a' (by decide) (mem_append_left hargument)
    | flag => exact hne 'a' (by decide) (mem_append_left hargument)
    | conditionsEffects => exact hne 'a' (by decide) (mem_append_left hargument)
  | metaDeclared target => exact hne 'b' (by decide) (mem_append_right (mem_literal (by decide)))
  | undeclared kind name =>
    exact hne 'd' (by decide)
      (mem_append_left (mem_append_left (mem_append_left (mem_literal (by decide)))))
  | unknownCommand name => exact hne 'd' (by decide) (mem_append_left (mem_literal (by decide)))
  | joinedConditions => exact hne 'd' (by decide) (mem_append_left (mem_literal (by decide)))
  | joinedEffects => exact hne 'a' (by decide) (mem_append_left (mem_literal (by decide)))
  | _ => exact absurd hs (by simp [severity])

theorem isContextual_of_info {c : Cause} (hs : c.severity = .info) : c.isContextual = true := by
  cases c <;> first | rfl | exact absurd hs (by simp [severity])

/-- No warning that lies in the line itself says that a menu has no time limit. -/
theorem isContextual_of_timeupMessage {c : Cause} (hs : c.severity = .warning)
    (hm : c.message = timeupMessage) : c.isContextual = true := by
  have hother : ∀ d ∈ ['b', 'g', 'k', 'v', 'y'], d ∉ timeupMessage.toList := by
    rw [timeupMessage, String.toList_ofList]
    decide
  have hne : ∀ d ∈ ['b', 'g', 'k', 'v', 'y'], d ∈ c.message.toList → c.isContextual = true :=
    fun d hd hmem => absurd hm (ne_of_mem_toList hmem (hother d hd))
  cases c with
  | takesNoArguments keyword =>
    exact hne 'k' (by decide) (mem_append_right (mem_literal (by decide)))
  | commandTakesAtMost command count =>
    exact hne 'k' (by decide)
      (mem_append_left (mem_append_left (mem_append_right (mem_literal (by decide)))))
  | commandMissing command parameter =>
    exact hne 'g' (by decide) (mem_append_left (mem_append_right (mem_literal (by decide))))
  | commandArgumentShape => exact hne 'g' (by decide) (mem_literal (by decide))
  | commandArgumentForm parameter form =>
    exact hne 'g' (by decide)
      (mem_append_left (mem_append_left (mem_append_left (mem_literal (by decide)))))
  | noTimeLimit => rfl
  | misplacedTime => exact hne 'y' (by decide) (mem_literal (by decide))
  | misplacedSpecial label => exact hne 'y' (by decide) (mem_append_right (mem_literal (by decide)))
  | misplacedCondition => exact hne 'v' (by decide) (mem_literal (by decide))
  | misplacedEffect => exact hne 'v' (by decide) (mem_literal (by decide))
  | danglingNegation => exact hne 'b' (by decide) (mem_literal (by decide))
  | _ => exact absurd hs (by simp [severity])

end Cause

/-! ## Tracing a message back -/

theorem number_of_split : ∀ {ls : List (List Char)} {k n : Nat} {raw : List Char}
    {before after : List (Nat × List Char)}, numberFrom k ls = before ++ (n, raw) :: after →
      n = k + before.length
  | [], _, _, _, before, _, h => by simp [numberFrom] at h
  | l :: ls, k, n, raw, [], after, h => by
      rw [numberFrom, List.nil_append, List.cons.injEq] at h
      exact (Prod.mk.inj h.1).1.symm
  | l :: ls, k, n, raw, b :: before, after, h => by
      rw [numberFrom, List.cons_append, List.cons.injEq] at h
      have ih := number_of_split h.2
      rw [List.length_cons]
      omega

/-- The lines in front of a line are known from its number. -/
theorem split_unique {text : List Char} {n : Nat} {raw raw' : List Char}
    {before after before' after' : List (Nat × List Char)}
    (h : numberedLines text = before ++ (n, raw) :: after)
    (h' : numberedLines text = before' ++ (n, raw') :: after') : before = before' ∧ raw = raw' := by
  have hlength : before.length = before'.length := by
    have := number_of_split h
    have := number_of_split h'
    omega
  obtain ⟨hbefore, hrest⟩ := List.append_inj (h.symm.trans h') hlength
  exact ⟨hbefore, (Prod.mk.inj (List.cons.inj hrest).1).2⟩

/-- The report has such a diagnostic on line `n`. -/
def Reported (catalog : Catalog) (text : String) (n : Nat) (severity : Severity)
    (message : String) : Prop :=
  ∃ d ∈ diagnostics catalog text, d.line = n ∧ d.severity = severity ∧ d.message = message

/-- A diagnostic that is not about the header stands for a mark, and each mark has a diagnostic. -/
theorem reported_iff_exists_mark {catalog : Catalog} {text : String} {n : Nat} {severity : Severity}
    {message : String}
    (hheader : Cause.noHeader.severity = severity → Cause.noHeader.message ≠ message) :
    Reported catalog text n severity message ↔
      ∃ m ∈ allMarks catalog (Line.ofText text.toList),
        m.line.number = n ∧ m.cause.severity = severity ∧ m.cause.message = message := by
  constructor
  · rintro ⟨d, hd, hnumber, hs, hm⟩
    obtain ⟨f, hf, rfl⟩ := List.mem_map.1 hd
    rcases mem_findings.1 hf with hf | ⟨m, hmark, hfinding⟩
    · have hcause := cause_of_mem_headerFindings hf
      exact absurd (hcause ▸ hm) (hheader (hcause ▸ hs))
    · obtain ⟨columns, -, rfl⟩ := Option.map_eq_some_iff.1 hfinding
      exact ⟨m, hmark, hnumber, hs, hm⟩
  · rintro ⟨m, hm, rfl, rfl, rfl⟩
    exact exists_diagnostic_of_mem_allMarks hm

theorem isContextual_of_mem_duplicateMarks {m : Mark} : ∀ {ds : List Declaration}
    {seen : List (NameKind × String)}, m ∈ duplicateMarks seen ds → m.cause.isContextual = false
  | [], _, h => by simp [duplicateMarks] at h
  | d :: ds, seen, h => by
      rw [duplicateMarks] at h
      split at h
      · rcases List.mem_cons.1 h with rfl | h
        · rfl
        · exact isContextual_of_mem_duplicateMarks h
      · exact isContextual_of_mem_duplicateMarks h

section

variable {catalog : Catalog} {text : String} {before after : List (Nat × List Char)} {n : Nat}
  {raw : List Char}

theorem ofText_split (hsplit : numberedLines text.toList = before ++ (n, raw) :: after) :
    Line.ofText text.toList = (before.map fun p => Line.ofRaw p.1 p.2) ++
      Line.ofRaw n raw :: after.map fun p => Line.ofRaw p.1 p.2 := by
  show (numberedLines text.toList).map (fun p => Line.ofRaw p.1 p.2) = _
  rw [hsplit, List.map_append, List.map_cons]

/-- A mark of the walk down the lines, that has the number of this line, was put on this line. -/
theorem mem_lineMarks_of_mem_marksFrom
    (hsplit : numberedLines text.toList = before ++ (n, raw) :: after) {d : Declared}
    {s : CheckState} {m : Mark} (hm : m ∈ marksFrom d s (Line.ofText text.toList))
    (hnumber : m.line.number = n) :
    m ∈ lineMarks d ((before.map fun p => Line.ofRaw p.1 p.2).foldl CheckState.next s)
      (Line.ofRaw n raw) := by
  obtain ⟨before', line, after', hlines, hmline⟩ := mem_marksFrom.1 hm
  obtain ⟨b, l, hnumbered, rfl, hl⟩ := List.map_eq_append_iff.1 hlines
  obtain ⟨⟨n', raw'⟩, a, rfl, rfl, -⟩ := List.map_eq_cons_iff.1 hl
  obtain rfl : n' = n := by
    rw [← hnumber, line_eq_of_mem_lineMarks hmline]
    rfl
  obtain ⟨rfl, rfl⟩ := split_unique hsplit hnumbered
  exact hmline

/-- A mark on the context of some line, that has the number of this line, is one on its context. -/
theorem mem_contextMarks_of_mem_allMarks
    (hsplit : numberedLines text.toList = before ++ (n, raw) :: after) {k : Keyword}
    (hk : (Line.ofRaw n raw).keyword? = some k) {m : Mark}
    (hm : m ∈ allMarks catalog (Line.ofText text.toList)) (hcontext : m.cause.isContextual = true)
    (hnumber : m.line.number = n) :
    m ∈ contextMarks (checkStateBehind before) (Line.ofRaw n raw) k := by
  rw [allMarks, List.mem_append, List.mem_append] at hm
  rcases hm with (hm | hm) | hm
  · obtain ⟨line, -, rfl⟩ := List.mem_map.1 hm
    exact absurd hcontext (by simp [Cause.isContextual])
  · rw [isContextual_of_mem_duplicateMarks hm] at hcontext
    exact absurd hcontext (by decide)
  · rcases mem_lineMarks_cases (mem_lineMarks_of_mem_marksFrom hsplit hm hnumber) with
      hlocal | ⟨j, hj, hmcontext⟩
    · rw [hlocal.isContextual] at hcontext
      exact absurd hcontext (by decide)
    · obtain rfl : j = k := Option.some.inj (hj.symm.trans hk)
      exact hmcontext

/-- **A message about the context of a line** comes from the state in front of that line. -/
theorem reported_iff (hsplit : numberedLines text.toList = before ++ (n, raw) :: after)
    {k : Keyword} (hk : (Line.ofRaw n raw).keyword? = some k) {severity : Severity}
    {message : String}
    (hcontext : ∀ c : Cause, c.severity = severity → c.message = message → c.isContextual = true) :
    Reported catalog text n severity message ↔
      ∃ m ∈ contextMarks (checkStateBehind before) (Line.ofRaw n raw) k,
        m.cause.severity = severity ∧ m.cause.message = message := by
  have hheader : Cause.noHeader.severity = severity → Cause.noHeader.message ≠ message :=
    fun hs hm => absurd (hcontext .noHeader hs hm) (by decide)
  rw [reported_iff_exists_mark hheader]
  constructor
  · rintro ⟨m, hm, hnumber, hs, hmessage⟩
    have hmcontext := hcontext m.cause hs hmessage
    exact ⟨m, mem_contextMarks_of_mem_allMarks hsplit hk hm hmcontext hnumber, hs, hmessage⟩
  · rintro ⟨m, hm, hs, hmessage⟩
    have hall : m ∈ allMarks catalog (Line.ofText text.toList) :=
      mem_allMarks_of_mem_lineMarks (ofText_split hsplit)
        (mem_lineMarks_of_mem_contextMarks (Line.isCode_of_keyword? hk) hk hm)
    refine ⟨m, hall, ?_, hs, hmessage⟩
    rw [line_eq_of_mem_contextMarks hm]
    rfl

end

/-! ## The three messages -/

theorem severity_of_mem_menuMarks {menu : Option MenuState} {line : Line} {k : Keyword} {m : Mark}
    (h : m ∈ MenuState.marks menu line k) : m.cause.severity ≠ .error := by
  unfold MenuState.marks at h
  split at h
  next label rest _ =>
    rw [Option.mem_toList, Option.map_eq_some_iff] at h
    obtain ⟨cause, hcause, rfl⟩ := h
    show cause.severity ≠ .error
    unfold MenuState.labelCause? at hcause
    split at hcause
    next =>
      split at hcause
      next => rw [← Option.some.inj hcause]; decide
      next => exact absurd hcause (by simp)
    next =>
      split at hcause
      next => exact absurd hcause (by simp)
      next => rw [← Option.some.inj hcause]; decide
    next => exact absurd hcause (by simp)
  next => exact absurd h (by simp)

theorem severity_of_mem_previousMarks {previous : Option Line} {line : Line} {k : Keyword}
    {m : Mark} (h : m ∈ previousMarks previous line k) : m.cause.severity = .error := by
  unfold previousMarks at h
  split at h
  next => exact absurd h (by simp)
  next =>
    split at h
    next => exact absurd h (by simp)
    next => rw [List.mem_singleton.1 h]; rfl

/-- An IS line is an orphan if no CHOICE or IS line is right in front of it. -/
theorem orphan_mem_contextMarks_iff {s : CheckState} {line p : Line} (hp : s.previous = some p) :
    (∃ m ∈ contextMarks s line .is, m.cause.severity = .error ∧ m.cause.message = orphanMessage) ↔
      ¬ (Keyword.choice.opens p.trimmed = true ∨ Keyword.is.opens p.trimmed = true) := by
  have hprevious : previousMarks s.previous line .is =
      if Keyword.choice.opens p.trimmed = true ∨ Keyword.is.opens p.trimmed = true then []
      else [line.markKeyword .is (.misplaced .is [.choice, .is])] := by
    rw [hp]
    simp [previousMarks, Keyword.rule]
  constructor
  · rintro ⟨m, hm, hs, -⟩ hopens
    rcases List.mem_append.1 hm with hm | hm
    · rw [hprevious, if_pos hopens] at hm
      exact absurd hm (by simp)
    · exact severity_of_mem_menuMarks hm hs
  · intro hopens
    refine ⟨line.markKeyword .is (.misplaced .is [.choice, .is]), List.mem_append_left _ ?_,
      rfl, rfl⟩
    rw [hprevious, if_neg hopens]
    exact List.mem_singleton_self _

/-- The label of an IS line: its first argument. -/
def Line.label? (line : Line) : Option (List Char) :=
  (line.arguments .is).head?.map Segment.text

/-- What hangs on the label of an IS line is said about that label. -/
theorem label_mem_contextMarks_iff {s : CheckState} {line : Line} {special : Special} {c : Cause}
    (hlabel : line.label? = some special.letters) (hc : c.severity ≠ .error) :
    (∃ m ∈ contextMarks s line .is, m.cause.severity = c.severity ∧ m.cause.message = c.message) ↔
      ∃ c', (s.menu.getD MenuState.untimed).labelCause? special.letters = some c' ∧
        c'.severity = c.severity ∧ c'.message = c.message := by
  obtain ⟨label, hhead, htext⟩ := Option.map_eq_some_iff.1 hlabel
  obtain ⟨rest, hargs⟩ := List.head?_eq_some_iff.1 hhead
  have hmarks : MenuState.marks s.menu line .is =
      (((s.menu.getD MenuState.untimed).labelCause? label.text).map
        (line.markSegment label)).toList := by
    unfold MenuState.marks
    rw [hargs]
  constructor
  · rintro ⟨m, hm, hs, hmessage⟩
    rcases List.mem_append.1 hm with hm | hm
    · rw [severity_of_mem_previousMarks hm] at hs
      exact absurd hs.symm hc
    · rw [hmarks, Option.mem_toList, Option.map_eq_some_iff] at hm
      obtain ⟨c', hc', rfl⟩ := hm
      exact ⟨c', htext ▸ hc', hs, hmessage⟩
  · rintro ⟨c', hc', hs, hmessage⟩
    refine ⟨line.markSegment label c', List.mem_append_right _ ?_, hs, hmessage⟩
    rw [hmarks, htext, hc']
    exact List.mem_singleton_self _

/-- What is said under a condition is said exactly when the condition holds. -/
theorem exists_ite_eq_some_iff {p : Prop} [Decidable p] {c : Cause} {P : Cause → Prop} (h : P c) :
    (∃ c', (if p then some c else none) = some c' ∧ P c') ↔ p := by
  constructor
  · rintro ⟨c', hc', -⟩
    by_contra hp
    rw [if_neg hp] at hc'
    exact absurd hc' (by simp)
  · intro hp
    exact ⟨c, if_pos hp, h⟩

theorem OpenMenu.getD_state (menu : Option OpenMenu) :
    (menu.map OpenMenu.state).getD MenuState.untimed = (menu.getD ⟨none, []⟩).state := by
  cases menu <;> rfl

/-! ## The result -/

/-- **The checks and the reader agree on the open menu.** In front of every line of a page the
checks know of the open menu whether it has a time limit and how many options it has. So, on an IS
line of a page,

* it is said to be an orphan exactly when the reader opens a menu for it;
* `/SAME` is said to have nothing to repeat exactly when the line is the first one of the menu that
  the reader flushes with it;
* `/TIMEUP` is said to need a time limit exactly when that menu has none. -/
theorem menu_simulation {catalog : Catalog} {text : String} (hglue : NoGluedComment text.toList)
    {before after : List (Nat × List Char)} {n : Nat} {raw : List Char}
    (hsplit : numberedLines text.toList = before ++ (n, raw) :: after)
    {page : OpenPage} (hpage : (readerBehind before).current = some page) :
    (checkStateBehind before).menu = page.menu.map OpenMenu.state ∧
      ∀ line, CodeLine.ofRaw? n raw = some line → line.opensWith .is = true →
        (Reported catalog text n .error orphanMessage ↔ page.menu = none) ∧
          ∃ earlier menu, FlushesAs (readerBehind before) page line (codeLinesOf after) earlier menu ∧
            ((Line.ofRaw n raw).label? = some Special.same.letters →
              (Reported catalog text n .info sameMessage ↔ earlier = [])) ∧
            ((Line.ofRaw n raw).label? = some Special.timeup.letters →
              (Reported catalog text n .warning timeupMessage ↔ menu.time = none)) := by
  have hstep := inStep_behind hglue hsplit hpage
  refine ⟨hstep.menu, fun line hline his => ⟨?_, ?_⟩⟩
  all_goals
    have hraw : raw ∈ lines text.toList := by
      refine mem_of_mem_numberFrom (k := 1) (n := n) ?_
      rw [← numberedLines, hsplit]
      exact List.mem_append_right _ List.mem_cons_self
    have hk : (Line.ofRaw n raw).keyword? = some .is :=
      (CodeLine.opensWith_iff (hglue.ne hraw) hline).1 his
  · obtain ⟨p, hp, hopens⟩ := hstep.previous
    rw [reported_iff hsplit hk fun c => Cause.isContextual_of_orphanMessage,
      orphan_mem_contextMarks_iff hp, hopens, Option.not_isSome_iff_eq_none]
  · obtain ⟨menu, hflushes, htime⟩ := exists_flushesAs hpage his (codeLinesOf after)
    refine ⟨_, menu, hflushes, fun hlabel => ?_, fun hlabel => ?_⟩
    · have hcause : ∀ state : MenuState, state.labelCause? Special.same.letters =
          if state.options = 0 then some .nothingToRepeat else none := fun _ => rfl
      rw [reported_iff hsplit hk fun c hs _ => Cause.isContextual_of_info hs,
        show Severity.info = Cause.nothingToRepeat.severity from rfl,
        show sameMessage = Cause.nothingToRepeat.message from rfl,
        label_mem_contextMarks_iff hlabel (by decide), hstep.menu, OpenMenu.getD_state, hcause,
        exists_ite_eq_some_iff ⟨rfl, rfl⟩]
      exact List.length_eq_zero_iff
    · have hcause : ∀ state : MenuState, state.labelCause? Special.timeup.letters =
          if state.timed = false then some .noTimeLimit else none := by
        intro state
        show (if state.timed = true then none else some Cause.noTimeLimit) = _
        cases state.timed <;> rfl
      rw [reported_iff hsplit hk fun c => Cause.isContextual_of_timeupMessage,
        show Severity.warning = Cause.noTimeLimit.severity from rfl,
        show timeupMessage = Cause.noTimeLimit.message from rfl,
        label_mem_contextMarks_iff hlabel (by decide), hstep.menu, OpenMenu.getD_state, hcause,
        exists_ite_eq_some_iff ⟨rfl, rfl⟩, htime]
      show (page.menu.getD ⟨none, []⟩).time.isSome = false ↔ _
      rw [Option.isSome_eq_false_iff, Option.isNone_iff_eq_none]

/-! ## An option without a menu -/

/-- A page with an IS line that repeats nothing, and no CHOICE line. -/
def orphanText : String := "DEFINE \"t\"\nPAGE @a\nIS /SAME @a"

/-- The reader opens a menu for the line and reads its first option, so the report says that there is
no menu, and that there is nothing to repeat. -/
theorem menu_simulation_orphanText : Reported .empty orphanText 3 .error orphanMessage ∧
    Reported .empty orphanText 3 .info sameMessage := by
  have hglue : NoGluedComment orphanText.toList := by decide +kernel
  have hsplit : numberedLines orphanText.toList =
      [(1, "DEFINE \"t\"".toList), (2, "PAGE @a".toList)] ++
        (3, "IS /SAME @a".toList) :: [] := by decide +kernel
  have hpage : (readerBehind [(1, "DEFINE \"t\"".toList), (2, "PAGE @a".toList)]).current =
      some ⟨"a", [], none⟩ := by decide +kernel
  have hline : CodeLine.ofRaw? 3 "IS /SAME @a".toList =
      some ⟨3, "IS /SAME @a".toList, [.keyword .is, .special .same, .page "a"]⟩ := by
    decide +kernel
  obtain ⟨horphan, earlier, menu, hflushes, hsame, -⟩ :=
    (menu_simulation hglue hsplit hpage).2 _ hline (by decide)
  obtain ⟨later, rest, hafter, hoptions, -, -, hcurrent⟩ := hflushes.options
  refine ⟨horphan.2 rfl, (hsame (by decide +kernel)).2 ?_⟩
  obtain ⟨rfl, rfl⟩ := List.append_eq_nil_iff.1 hafter.symm
  rw [List.foldl_cons, List.foldl_nil, Reader.step_is hpage (by decide)] at hcurrent
  obtain rfl := Option.some.inj (OpenPage.mk.inj (Option.some.inj hcurrent)).2.2
  exact List.append_cancel_right hoptions.symm

end Gamebook
