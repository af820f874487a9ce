import Gamebook.Proofs.Check.Report
import Gamebook.Proofs.Story.Harmless

/-!
Gamebook.Proofs.Story.Checking — the checks go through a story without an error.

What stands in front of a line matters for IS lines only, and these stand behind their CHOICE line. So
the lines of each command are clean in whatever state the checks are when they reach them (`Clean`),
and clean lines behind each other are clean.

* `Suits`, `argumentMarks_eq_nil`: each keyword has the arguments that its rule asks for.
* `severity_ne_of_mem_lineMarks`: a line with a keyword and suitable, harmless arguments.
* `clean_command`, `clean_page`: the lines of a command and of a page.
-/

namespace Gamebook

open Text

/-! ## Arguments -/

/-- The words are what the specs ask for. -/
structure Suits (specs : List ArgSpec) (ws : List (List Char)) : Prop where
  /-- No required argument is missing. -/
  required : ∀ i, ∀ spec ∈ specs[i]?, spec.required = true → i < ws.length
  /-- Each argument has its shape. -/
  accepts : ∀ i, ∀ w ∈ ws[i]?, ∃ spec ∈ specAt? specs i, spec.kind.accepts w = true

theorem fixedArgumentMarks_eq_nil {specs : List ArgSpec} {args : List Segment}
    (h : Suits specs (args.map Segment.text)) (line : Line) (k : Keyword) :
    fixedArgumentMarks line k specs args = [] := by
  have hshape : ∀ i a, args[i]? = some a → ∃ spec ∈ specAt? specs i, spec.kind.accepts a.text = true := by
    intro i a ha
    refine h.accepts i a.text ?_
    rw [List.getElem?_map, ha]
    rfl
  unfold fixedArgumentMarks
  split
  next hnil =>
    cases args with
    | nil => rfl
    | cons a args =>
      obtain ⟨spec, hspec, -⟩ := hshape 0 a rfl
      rw [hnil] at hspec
      exact absurd hspec (by simp [specAt?])
  next =>
    refine List.append_eq_nil_iff.2 ⟨List.filterMap_eq_nil_iff.2 ?_, List.filterMap_eq_nil_iff.2 ?_⟩
    · rintro ⟨spec, i⟩ hmem
      have hlt := h.required i spec (List.mk_mem_zipIdx_iff_getElem?.1 hmem)
      rw [List.length_map] at hlt
      exact if_neg fun hmissing => absurd (hlt hmissing.1) (Nat.not_lt.2 hmissing.2)
    · rintro ⟨a, i⟩ hmem
      obtain ⟨spec, hspec, haccepts⟩ := hshape i a (List.mk_mem_zipIdx_iff_getElem?.1 hmem)
      simp only [Option.mem_def.1 hspec, haccepts, if_true]

/-- Without a catalog, only the arguments of a fixed list are looked at. -/
theorem argumentMarks_eq_nil {k : Keyword} {ws : List (List Char)} (hsolid : ∀ w ∈ ws, IsSolid w)
    (h : ∀ specs, k.rule.arity = .fixed specs → Suits specs ws) (n : Nat) :
    argumentMarks .empty (Line.ofRaw n (k.line ws)) k = [] := by
  rw [argumentMarks]
  split
  next specs hspecs =>
    refine fixedArgumentMarks_eq_nil ?_ _ k
    rw [k.arguments_line hsolid]
    exact h specs hspecs
  next =>
    unfold commandMarks
    split
    next => rfl
    next =>
      split
      next => rfl
      next => rfl

theorem accepts_quotation {text : String} (h : IsQuotable text) :
    ArgKind.text.accepts (quotation text) = true := by
  show ((text.toList ++ ['"']).getLast? == some '"' && !(text.toList ++ ['"']).contains '\n') = true
  have hnewline : '\n' ∉ text.toList ++ ['"'] := by
    rw [List.mem_append, not_or]
    exact ⟨h.2, by decide⟩
  rw [List.getLast?_concat, beq_self_eq_true, Bool.true_and, Bool.not_eq_true',
    List.contains_eq_mem, decide_eq_false_iff_not]
  exact hnewline

theorem accepts_pageWord {name : String} (h : IsName name) :
    ArgKind.page.accepts (pageWord name) = true := by
  rw [pageWord, ArgKind.accepts]
  · rw [Bool.and_eq_true, bne_iff_ne, List.all_eq_true]
    exact ⟨h.toList_ne_nil, h.2⟩
  · intro rest hcaret
    exact absurd (h.2 '^' (by rw [hcaret]; simp)) (by decide)

theorem accepts_flagWord {name : String} (h : IsName name) :
    ArgKind.flag.accepts (flagWord name) = true := by
  show (name.toList != [] && name.toList.all isWordChar) = true
  rw [Bool.and_eq_true, bne_iff_ne, List.all_eq_true]
  exact ⟨h.toList_ne_nil, h.2⟩

theorem accepts_metaTarget (t : MetaTarget) : ArgKind.page.accepts t.word = true := by
  cases t <;> decide

theorem accepts_clause (c : Clause) : ArgKind.conditionsEffects.accepts c.word = true := by
  have hopening : ClauseKind.opening? ClauseKind.all c.word =
      some (c.kind, [','].intercalate (c.flags.map flagWord)) :=
    ClauseKind.opening?_eq_some_iff.2 ⟨c.kind.mem_all, rfl⟩
  rw [ArgKind.accepts, hopening, Option.isSome_some, Bool.or_true]

theorem Destination.WellFormed.accepts {pages : List String} (hpages : ∀ name ∈ pages, IsName name)
    {d : Destination} (h : d.WellFormed pages) : ArgKind.page.accepts d.word = true := by
  cases d with
  | page name => exact accepts_pageWord (hpages name h)
  | stayHere => exact accepts_metaTarget .here
  | goBack => exact accepts_metaTarget .back

/-! ## Suitable arguments -/

/-- A keyword with one required argument. -/
theorem Suits.singleton {spec : ArgSpec} {w : List Char} (h : spec.kind.accepts w = true) :
    Suits [spec] [w] := by
  refine ⟨fun i spec' hspec _ => ?_, fun i v hv => ?_⟩
  · cases i with
    | zero => exact Nat.one_pos
    | succ i => exact absurd hspec (by simp)
  · cases i with
    | zero =>
      obtain rfl : w = v := by simpa using hv
      exact ⟨spec, rfl, h⟩
    | succ i => exact absurd hv (by simp)

/-- A keyword with arguments of one shape, one at least. -/
theorem Suits.repeatable {spec : ArgSpec} {ws : List (List Char)} (hne : ws ≠ [])
    (hrepeatable : spec.repeatable = true) (h : ∀ w ∈ ws, spec.kind.accepts w = true) :
    Suits [spec] ws := by
  refine ⟨fun i spec' hspec _ => ?_, fun i w hw => ⟨spec, ?_, h w (List.mem_of_getElem? hw)⟩⟩
  · cases i with
    | zero => exact List.length_pos_iff.2 hne
    | succ i => exact absurd hspec (by simp)
  · cases i with
    | zero => rfl
    | succ i => simp [specAt?, hrepeatable]

theorem suits_time (time : Option TimeLimit) :
    Suits [⟨.time, false, false⟩] (time.toList.map TimeLimit.word) := by
  cases time with
  | some t => exact .singleton (Token.accepts_time_iff.2 ⟨t, t.ofWord_word⟩)
  | none =>
    refine ⟨fun i spec hspec hrequired => ?_, fun i w hw => absurd hw (by simp)⟩
    cases i with
    | zero =>
      obtain rfl : ⟨.time, false, false⟩ = spec := by simpa using hspec
      exact absurd hrequired (by decide)
    | succ i => exact absurd hspec (by simp)

section Names

variable {pages flags : List String} (hpages : ∀ name ∈ pages, IsName name)
include hpages

theorem suits_goto {t : Transition} (h : t.destination.WellFormed pages) :
    Suits [⟨.page, true, false⟩, ⟨.conditionsEffects, false, true⟩] t.words := by
  refine ⟨fun i spec hspec hrequired => ?_, fun i w hw => ?_⟩
  · match i with
    | 0 => exact Nat.succ_pos _
    | 1 =>
      obtain rfl : ⟨.conditionsEffects, false, true⟩ = spec := by simpa using hspec
      exact absurd hrequired (by decide)
    | i + 2 => exact absurd hspec (by simp)
  · match i with
    | 0 =>
      obtain rfl : t.destination.word = w := by simpa [Transition.words] using hw
      exact ⟨_, rfl, h.accepts hpages⟩
    | i + 1 =>
      have hmem : w ∈ t.clauses.map Clause.word := List.mem_of_getElem? hw
      obtain ⟨c, -, rfl⟩ := List.mem_map.1 hmem
      refine ⟨⟨.conditionsEffects, false, true⟩, ?_, accepts_clause c⟩
      cases i <;> rfl

theorem suits_is {o : ChoiceOption} (hlabel : o.HasLabel)
    (h : o.transition.destination.WellFormed pages) :
    Suits [⟨.textOrSpecial, true, false⟩, ⟨.page, true, false⟩, ⟨.conditionsEffects, false, true⟩]
      (o.label :: o.transition.words) := by
  have hgoto := suits_goto hpages h
  refine ⟨fun i spec hspec hrequired => ?_, fun i w hw => ?_⟩
  · cases i with
    | zero => exact Nat.succ_pos _
    | succ i => exact Nat.succ_lt_succ (hgoto.required i spec hspec hrequired)
  · cases i with
    | zero =>
      obtain rfl : o.label = w := by simpa using hw
      exact ⟨_, rfl, hlabel.accepts⟩
    | succ i =>
      obtain ⟨spec, hspec, haccepts⟩ := hgoto.accepts i w hw
      refine ⟨spec, ?_, haccepts⟩
      match i with
      | 0 => exact hspec
      | 1 => exact hspec
      | i + 2 => exact hspec

end Names

/-! ## Marks on one line -/

theorem severity_ne_of_mem_menuMarks {menu : Option MenuState} {line : Line} {k : Keyword} {m : Mark}
    (h : m ∈ MenuState.marks menu line k) : m.cause.severity ≠ .error := by
  unfold MenuState.marks at h
  split at h
  next label _ _ =>
    rw [Option.mem_toList, Option.map_eq_some_iff] at h
    obtain ⟨cause, hcause, rfl⟩ := h
    show cause.severity ≠ .error
    unfold MenuState.labelCause? at hcause
    split at hcause
    · split at hcause
      · rw [← Option.some.inj hcause]
        decide
      · exact absurd hcause (by simp)
    · split at hcause
      · exact absurd hcause (by simp)
      · rw [← Option.some.inj hcause]
        decide
    · exact absurd hcause (by simp)
  next => exact absurd h (by simp)

/-- The line of code before is one that the keyword may follow. -/
def Follows (s : CheckState) (k : Keyword) : Prop :=
  k.rule.follows = [] ∨ ∃ p, s.previous = some p ∧ ∃ j ∈ k.rule.follows, p.keyword? = some j

theorem previousMarks_eq_nil {s : CheckState} {k : Keyword} (h : Follows s k) (line : Line) :
    previousMarks s.previous line k = [] := by
  unfold previousMarks
  split
  next => rfl
  next q hq =>
    refine if_pos ?_
    rcases h with hnil | ⟨p, hp, j, hj, hkeyword⟩
    · exact Or.inl hnil
    · obtain rfl := Option.some.inj (hq.symm.trans hp)
      exact Or.inr (List.any_eq_true.2 ⟨j, hj, Keyword.leading?_eq_some_iff.1 hkeyword⟩)

section Declared

variable {d : Declared} (hcatalog : d.catalog = .empty)
include hcatalog

/-- **A line with a keyword and suitable, harmless arguments has no error.** -/
theorem severity_ne_of_mem_lineMarks {s : CheckState} {k : Keyword} {ws : List (List Char)}
    (hsolid : ∀ w ∈ ws, IsSolid w)
    (hharmless : ∀ w ∈ ws, Harmless d.pages d.flags (blankQuoted w))
    (hsuits : ∀ specs, k.rule.arity = .fixed specs → Suits specs ws) (hfollows : Follows s k)
    {n : Nat} (hmeta : k = .page → '^' ∉ (Line.ofRaw n (k.line ws)).code) :
    ∀ m ∈ lineMarks d s (Line.ofRaw n (k.line ws)), m.cause.severity ≠ .error := by
  intro m hm
  have hk := k.keyword?_line hsolid n
  rw [lineMarks, if_pos (Line.isCode_of_keyword? hk), List.mem_append] at hm
  rcases hm with hm | hm
  · rw [keywordMarks, hk, hcatalog] at hm
    simp only [previousMarks_eq_nil hfollows, argumentMarks_eq_nil hsolid hsuits, List.nil_append]
      at hm
    exact severity_ne_of_mem_menuMarks hm
  · refine severity_ne_of_mem_codeMarks (Harmless.code_line k hsolid hharmless n) ?_ ?_ hm
    · rw [hcatalog]
      rfl
    · intro hpage
      rw [hk] at hpage
      exact hmeta (Option.some.inj hpage)

/-- **A text line has no error.** -/
theorem severity_ne_of_mem_textLineMarks {s : CheckState} {clauses : List Clause}
    (h : ∀ c ∈ clauses, ∀ f ∈ c.flags, f ∈ d.flags ∧ IsName f) {text : String}
    (htext : IsLineText text) (kind : MessageKind) (n : Nat) :
    ∀ m ∈ lineMarks d s (Line.ofRaw n (textLine kind clauses text)),
      m.cause.severity ≠ .error := by
  intro m hm
  have hwords : ∀ c ∈ clauses, IsClauseWord c.word :=
    fun c hc => isClauseWord_word fun f hf => (h c hc f hf).2
  have hk : (Line.ofRaw n (textLine kind clauses text)).keyword? = none :=
    keyword?_textLine hwords kind n
  unfold lineMarks at hm
  split at hm
  next =>
    rw [keywordMarks, hk, List.nil_append] at hm
    refine severity_ne_of_mem_codeMarks ?_ ?_ ?_ hm
    · rw [code_textLine hwords htext]
      exact Harmless.clauseFront kind h
    · rw [hcatalog]
      rfl
    · intro hpage
      rw [hk] at hpage
      exact absurd hpage (by simp)
  next => exact absurd hm (by simp)

end Declared

/-! ## Marks on lines behind each other -/

/-- The lines with numbers from `n` on, as the checks see them. -/
def checkLines (n : Nat) (raws : List (List Char)) : List Line :=
  (numberFrom n raws).map fun (n, raw) => Line.ofRaw n raw

theorem checkLines_cons (n : Nat) (raw : List Char) (raws : List (List Char)) :
    checkLines n (raw :: raws) = Line.ofRaw n raw :: checkLines (n + 1) raws := rfl

theorem checkLines_append (n : Nat) (a b : List (List Char)) :
    checkLines n (a ++ b) = checkLines n a ++ checkLines (n + a.length) b := by
  rw [checkLines, numberFrom_append, List.map_append]
  rfl

/-- From the state on, no mark on the lines is an error. -/
def Clean (d : Declared) (s : CheckState) (lines : List Line) : Prop :=
  ∀ m ∈ marksFrom d s lines, m.cause.severity ≠ .error

namespace Clean

variable {d : Declared} {s : CheckState}

theorem nil : Clean d s [] := fun m hm => absurd hm (by simp [marksFrom])

theorem cons {line : Line} {lines : List Line}
    (hline : ∀ m ∈ lineMarks d s line, m.cause.severity ≠ .error)
    (hlines : Clean d (s.next line) lines) : Clean d s (line :: lines) := by
  intro m hm
  rw [marksFrom, List.mem_append] at hm
  exact hm.elim (hline m) (hlines m)

/-- A line with a keyword that may stand behind any line. -/
theorem keyword (hcatalog : d.catalog = .empty) {k : Keyword} (hfree : k.rule.follows = [])
    (hpage : k ≠ .page) {ws : List (List Char)} (hsolid : ∀ w ∈ ws, IsSolid w)
    (hharmless : ∀ w ∈ ws, Harmless d.pages d.flags (blankQuoted w))
    (hsuits : ∀ specs, k.rule.arity = .fixed specs → Suits specs ws) {n : Nat} {lines : List Line}
    (hlines : Clean d (s.next (Line.ofRaw n (k.line ws))) lines) :
    Clean d s (Line.ofRaw n (k.line ws) :: lines) :=
  cons (severity_ne_of_mem_lineMarks hcatalog hsolid hharmless hsuits (Or.inl hfree)
    fun hk => absurd hk hpage) hlines

theorem append : ∀ {a b : List Line} {s : CheckState}, Clean d s a → (∀ s, Clean d s b) →
    Clean d s (a ++ b)
  | [], _, s, _, hb => hb s
  | line :: a, b, s, ha, hb => by
      refine cons (fun m hm => ha m ?_) (append (fun m hm => ha m ?_) hb)
      · rw [marksFrom, List.mem_append]
        exact Or.inl hm
      · rw [marksFrom, List.mem_append]
        exact Or.inr hm

/-- Blocks of lines that are clean in every state are clean behind each other. -/
theorem flatMap {α : Type} {f : α → List (List Char)} : ∀ {xs : List α},
    (∀ x ∈ xs, ∀ n s, Clean d s (checkLines n (f x))) →
      ∀ n s, Clean d s (checkLines n (xs.flatMap f))
  | [], _, _, _ => nil
  | x :: xs, h, n, s => by
      rw [List.flatMap_cons, checkLines_append]
      exact append (h x List.mem_cons_self n s)
        (flatMap (fun y hy => h y (List.mem_cons_of_mem _ hy)) _)

end Clean

/-! ## Commands and pages -/

/-- IS lines may stand behind a CHOICE line and behind another IS line. -/
theorem follows_next {n : Nat} {raw : List Char} {k : Keyword}
    (hk : (Line.ofRaw n raw).keyword? = some k) (hmenu : k ∈ Keyword.is.rule.follows)
    (s : CheckState) : Follows (s.next (Line.ofRaw n raw)) .is := by
  rw [CheckState.next, if_pos (Line.isCode_of_keyword? hk)]
  exact Or.inr ⟨_, rfl, k, hmenu, hk⟩

section Story

variable {d : Declared} (hcatalog : d.catalog = .empty) (hpages : ∀ name ∈ d.pages, IsName name)
  (hflags : ∀ name ∈ d.flags, IsName name)
include hcatalog hpages hflags

/-- **IS lines** are clean behind a CHOICE line or another IS line. -/
theorem clean_options : ∀ {options : List ChoiceOption},
    (∀ o ∈ options, o.HasLabel ∧ o.transition.WellFormed d.pages d.flags) →
      ∀ (n : Nat) (s : CheckState), Follows s .is →
        Clean d s (checkLines n (options.map ChoiceOption.line))
  | [], _, _, _, _ => Clean.nil
  | o :: options, h, n, s, hs => by
      obtain ⟨hlabel, ht⟩ := h o List.mem_cons_self
      have hsolid := ChoiceOption.isSolid hpages hflags hlabel ht
      have hharmless : ∀ w ∈ o.label :: o.transition.words,
          Harmless d.pages d.flags (blankQuoted w) := by
        intro w hw
        rcases List.mem_cons.1 hw with rfl | hw
        · exact Harmless.label hlabel
        · exact Harmless.transition hpages hflags ht w hw
      rw [List.map_cons, checkLines_cons]
      refine Clean.cons (severity_ne_of_mem_lineMarks hcatalog hsolid hharmless ?_ hs
        (fun hk => absurd hk (by decide))) ?_
      · intro specs hspecs
        obtain rfl := Arity.fixed.inj hspecs
        exact suits_is hpages hlabel ht.destination
      · exact clean_options (fun p hp => h p (List.mem_cons_of_mem _ hp)) (n + 1) _
          (follows_next (Keyword.is.keyword?_line hsolid n) (by decide) s)

/-- **The lines of a command are clean in every state.** -/
theorem clean_command {c : Command} (hc : c.WellFormed d.pages d.flags) (n : Nat) (s : CheckState) :
    Clean d s (checkLines n c.lines) := by
  cases c with
  | textLine kind conditions text =>
    refine Clean.cons (severity_ne_of_mem_textLineMarks hcatalog ?_ hc.2 kind n) Clean.nil
    intro e he f hf
    obtain ⟨e, he', rfl⟩ := List.mem_map.1 he
    exact ⟨hc.1 e he' hf, hflags f (hc.1 e he' hf)⟩
  | choice time options =>
    have hsolid := isSolid_time time
    have hharmless : ∀ w ∈ time.toList.map TimeLimit.word,
        Harmless d.pages d.flags (blankQuoted w) := by
      intro w hw
      obtain ⟨t, -, rfl⟩ := List.mem_map.1 hw
      exact Harmless.time t
    rw [Command.lines, checkLines_cons]
    refine Clean.keyword hcatalog rfl (by decide) hsolid hharmless ?_ ?_
    · intro specs hspecs
      obtain rfl := Arity.fixed.inj hspecs
      exact suits_time time
    · exact clean_options hcatalog hpages hflags hc (n + 1) _
        (follows_next (Keyword.choice.keyword?_line hsolid n) (by decide) s)
  | goto t =>
    refine Clean.keyword hcatalog rfl (by decide) (Transition.WellFormed.isSolid hpages hflags hc)
      (Harmless.transition hpages hflags hc) ?_ Clean.nil
    intro specs hspecs
    obtain rfl := Arity.fixed.inj hspecs
    exact suits_goto hpages (Transition.WellFormed.destination hc)
  | exec name args =>
    have hharmless : ∀ w ∈ ('#' :: name.toList) :: args.map String.toList,
        Harmless d.pages d.flags (blankQuoted w) := by
      intro w hw
      rcases List.mem_cons.1 hw with rfl | hw
      · exact Harmless.command hc.1
      · obtain ⟨a, ha, rfl⟩ := List.mem_map.1 hw
        exact Harmless.argument hpages hflags (hc.2 a ha)
    refine Clean.keyword hcatalog rfl (by decide) (isSolid_exec hpages hflags hc.1 hc.2) hharmless ?_
      Clean.nil
    exact fun specs hspecs => absurd hspecs (by simp [Keyword.rule])
  | pageEnd mode =>
    have hnil : ∀ {P : List Char → Prop}, ∀ w ∈ [], P w := by simp
    have hrule : mode.keyword.rule = ⟨.fixed [], []⟩ := by cases mode <;> rfl
    have hpage : mode.keyword ≠ .page := by cases mode <;> decide
    refine Clean.keyword hcatalog (by rw [hrule]) hpage hnil hnil ?_ Clean.nil
    intro specs hspecs
    rw [hrule] at hspecs
    rw [← Arity.fixed.inj hspecs]
    exact ⟨fun i spec hspec => absurd hspec (by simp), fun i w hw => absurd hw (by simp)⟩
  | broken m source => exact absurd hc id

/-- **The lines of a page are clean in every state.** -/
theorem clean_page {page : Page} (hname : page.name ∈ d.pages)
    (h : ∀ c ∈ page.commands, c.WellFormed d.pages d.flags) (n : Nat) (s : CheckState) :
    Clean d s (checkLines n page.lines) := by
  have hisName := hpages page.name hname
  have hsolid := isSolid_of_mem_singleton (isPlain_pageWord hisName).isSolid
  have hharmless : ∀ w ∈ [pageWord page.name], Harmless d.pages d.flags (blankQuoted w) := by
    intro w hw
    rw [List.mem_singleton.1 hw]
    exact Harmless.blankQuoted (isPlain_pageWord hisName).quote_notMem
      (Harmless.pageWord hname hisName)
  have hmeta : '^' ∉ (Line.ofRaw n (Keyword.page.line [pageWord page.name])).code := by
    have hcaret : '^' ∉ pageWord page.name := by
      intro hm
      rcases List.mem_cons.1 hm with hm | hm
      · exact absurd hm (by decide)
      · exact absurd (hisName.2 '^' hm) (by decide)
    rw [Keyword.page.code_line hsolid, List.map_singleton, blankQuoted,
      blankQuotedFrom_of_notMem (isPlain_pageWord hisName).quote_notMem, List.mem_append, not_or]
    refine ⟨Keyword.page.notMem_letters (by decide), ?_⟩
    intro hm
    obtain ⟨w, hw, hm⟩ := List.mem_flatMap.1 hm
    rw [List.mem_singleton.1 hw] at hm
    rcases List.mem_cons.1 hm with hm | hm
    · exact absurd hm (by decide)
    · exact hcaret hm
  rw [Page.lines, checkLines_cons]
  refine Clean.cons (severity_ne_of_mem_lineMarks hcatalog hsolid hharmless ?_ (Or.inl rfl)
    fun _ => hmeta) ?_
  · intro specs hspecs
    rw [← Arity.fixed.inj hspecs]
    exact .singleton (accepts_pageWord hisName)
  · exact Clean.flatMap (fun c hc n s => clean_command hcatalog hpages hflags (h c hc) n s) (n + 1) _

end Story

end Gamebook
