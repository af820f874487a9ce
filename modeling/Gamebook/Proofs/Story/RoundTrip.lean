import Mathlib.Data.List.Nodup
import Gamebook.Proofs.Story.Checking
import Gamebook.Proofs.Story.Reading

/-!
Gamebook.Proofs.Story.RoundTrip — what is written is read back, and accepted.

* `map_subject_declarations`: the text of a story declares the flags and the pages of the story, each
  once and in their order.
* `story_roundtrip`: the text of a story is read as the story, and no error is found in it.

Each half is put together from the lines of the story: `Story.read_text` from the steps of the reader,
`Story.accepted_text` from the marks of the checks.
-/

namespace Gamebook

open Text

/-! ## Declarations -/

/-- What a declaration is about. -/
def Declaration.subject (d : Declaration) : NameKind × String := (d.kind, d.name)

theorem declaredNames_eq (kind : NameKind) (ds : List Declaration) :
    declaredNames kind ds = (ds.map Declaration.subject).filterMap
      fun p => if p.1 = kind then some p.2 else none := by
  rw [declaredNames, List.filterMap_map]
  rfl

/-- Where no name is declared twice, no declaration is marked. -/
theorem duplicateMarks_eq_nil : ∀ {ds : List Declaration} {seen : List (NameKind × String)},
    (ds.map Declaration.subject).Nodup → (∀ d ∈ ds, d.subject ∉ seen) → duplicateMarks seen ds = []
  | [], _, _, _ => rfl
  | d :: ds, seen, hnodup, hseen => by
      rw [List.map_cons, List.nodup_cons] at hnodup
      have hd : (d.kind, d.name) ∉ seen := hseen d List.mem_cons_self
      rw [duplicateMarks, if_neg hd]
      refine duplicateMarks_eq_nil hnodup.2 fun e he hm => ?_
      rcases List.mem_cons.1 hm with hm | hm
      · have hsubject : e.subject = d.subject := hm
        rw [← hsubject] at hnodup
        exact hnodup.1 (List.mem_map_of_mem he)
      · exact hseen e (List.mem_cons_of_mem _ he) hm

/-- Arguments that are written as names declare these names. -/
theorem map_subject_filterMap (line : Line) (kind : NameKind) : ∀ {names : List String}
    {args : List Segment}, (∀ name ∈ names, IsName name) →
      args.map Segment.text = names.map (fun name => kind.sigil :: name.toList) →
        (args.filterMap (Declaration.ofArgument? line kind)).map Declaration.subject =
          names.map fun name => (kind, name)
  | [], [], _, _ => rfl
  | [], _ :: _, _, h => absurd h (by simp)
  | _ :: _, [], _, h => absurd h (by simp)
  | name :: names, arg :: args, hnames, h => by
      rw [List.map_cons, List.map_cons, List.cons.injEq] at h
      have hname := hnames name List.mem_cons_self
      have hrun : wordRun name.toList = name.toList := by
        have := wordRun_append (r := []) hname.2 (by simp)
        rwa [List.append_nil] at this
      have hdeclared : declaredName? kind arg.text = some name.toList := by
        rw [h.1, declaredName?, hrun, if_pos ⟨rfl, hname.toList_ne_nil⟩]
      have harg : Declaration.ofArgument? line kind arg =
          some ⟨line, ⟨arg.start, arg.start + 1 + byteLength name.toList⟩, kind, name⟩ := by
        rw [Declaration.ofArgument?, hdeclared, Option.map_some, String.ofList_toList]
      rw [List.filterMap_cons_some harg, List.map_cons,
        map_subject_filterMap line kind (fun n hn => hnames n (List.mem_cons_of_mem _ hn)) h.2]
      rfl

namespace Declared

variable (catalog : Catalog) (lines : List Line)

theorem ofLines_catalog : (ofLines catalog lines).catalog = catalog := rfl

theorem ofLines_pages : (ofLines catalog lines).pages = declaredNames .page (declarations lines) :=
  rfl

theorem ofLines_flags : (ofLines catalog lines).flags = declaredNames .flag (declarations lines) :=
  rfl

end Declared

theorem declarations_append (a b : List Line) :
    declarations (a ++ b) = declarations a ++ declarations b := List.flatMap_append

theorem mem_checkLines {n : Nat} {raws : List (List Char)} {line : Line}
    (h : line ∈ checkLines n raws) : ∃ m, ∃ raw ∈ raws, line = Line.ofRaw m raw := by
  obtain ⟨⟨m, raw⟩, hmem, rfl⟩ := List.mem_map.1 h
  exact ⟨m, raw, mem_of_mem_numberFrom hmem, rfl⟩

/-- The lines of commands open with no keyword that declares anything. -/
theorem IsCommandLine.keyword?_ne {raw : List Char} (h : IsCommandLine raw) (n : Nat) {j : Keyword}
    (hj : j ∈ [.define, .page, .flag]) : (Line.ofRaw n raw).keyword? ≠ some j := by
  cases h with
  | keyword k hk hws =>
    have key : ∀ k ∈ [Keyword.exec, .choice, .is, .goto, .ret, .back],
        ∀ j ∈ [Keyword.define, .page, .flag], k ≠ j := by decide
    rw [k.keyword?_line hws, ne_eq, Option.some.injEq]
    exact key k hk j hj
  | text kind hclauses htext =>
    rw [keyword?_textLine (fun c hc => isClauseWord_word (hclauses c hc))]
    simp

theorem declarations_eq_nil {raws : List (List Char)} (h : ∀ raw ∈ raws, IsCommandLine raw)
    (n : Nat) : declarations (checkLines n raws) = [] := by
  refine List.flatMap_eq_nil_iff.2 fun line hline => ?_
  obtain ⟨m, raw, hraw, rfl⟩ := mem_checkLines hline
  unfold Line.declarations
  split
  next hk => exact absurd hk ((h raw hraw).keyword?_ne m (by decide))
  next hk => exact absurd hk ((h raw hraw).keyword?_ne m (by decide))
  next => rfl

theorem map_subject_page {name : String} (h : IsName name) (n : Nat) :
    (Line.ofRaw n (Keyword.page.line [pageWord name])).declarations.map Declaration.subject =
      [(.page, name)] := by
  have hsolid := isSolid_of_mem_singleton (isPlain_pageWord h).isSolid
  have hargs : (((Line.ofRaw n (Keyword.page.line [pageWord name])).arguments .page).take 1).map
      Segment.text = [name].map fun name => NameKind.page.sigil :: name.toList := by
    rw [List.map_take, Keyword.page.arguments_line hsolid]
    rfl
  have hnames : ∀ other ∈ [name], IsName other := by
    intro other hother
    rw [List.mem_singleton.1 hother]
    exact h
  rw [Line.declarations, Keyword.page.keyword?_line hsolid]
  exact map_subject_filterMap _ .page hnames hargs

theorem map_subject_flag {flags : List String} (h : ∀ name ∈ flags, IsName name) (n : Nat) :
    (Line.ofRaw n (Keyword.flag.line (flags.map flagWord))).declarations.map Declaration.subject =
      flags.map fun name => (.flag, name) := by
  have hsolid := isSolid_flagWords h
  rw [Line.declarations, Keyword.flag.keyword?_line hsolid]
  exact map_subject_filterMap _ .flag h (Keyword.flag.arguments_line hsolid n)

namespace Story

variable (s : Story)

theorem isCommandLine_of_mem {page : Page} (hpage : page ∈ s.pages) :
    ∀ raw ∈ page.commands.flatMap Command.lines, IsCommandLine raw := by
  intro raw hraw
  obtain ⟨c, hc, hraw⟩ := List.mem_flatMap.1 hraw
  exact (s.wellFormed page hpage c hc).isCommandLine s.isName_of_mem_pages s.isName_flag raw hraw

theorem map_subject_pages : ∀ {pages : List Page}, (∀ page ∈ pages, page ∈ s.pages) → ∀ n : Nat,
    (declarations (checkLines n (pages.flatMap Page.lines))).map Declaration.subject =
      pages.map fun page => (.page, page.name)
  | [], _, _ => rfl
  | page :: pages, h, n => by
      have hpage := h page List.mem_cons_self
      have ih := map_subject_pages (fun q hq => h q (List.mem_cons_of_mem _ hq))
        (n + page.lines.length)
      rw [List.flatMap_cons, checkLines_append, declarations_append, List.map_append, ih, Page.lines,
        checkLines_cons, declarations, List.flatMap_cons, ← declarations,
        declarations_eq_nil (s.isCommandLine_of_mem hpage), List.append_nil,
        map_subject_page (s.isName_page page hpage)]
      rfl

theorem map_subject_flagLines (n : Nat) :
    (declarations (checkLines n (flagLines s.flags))).map Declaration.subject =
      s.flags.map fun name => (.flag, name) := by
  unfold flagLines
  split
  next hnil =>
    rw [hnil]
    rfl
  next =>
    rw [checkLines_cons, declarations, List.flatMap_cons, ← declarations]
    show (_ ++ []).map _ = _
    rw [List.append_nil, map_subject_flag s.isName_flag]

theorem ofText_text : Line.ofText s.text.toList = checkLines 1 s.lines := by
  rw [Line.ofText, numberedLines, s.lines_text]
  rfl

theorem isSolid_header : ∀ w ∈ [quotation s.name], IsSolid w :=
  isSolid_of_mem_singleton (isSolid_quotation s.isQuotable_name)

/-- **A story declares its flags and its pages**, each once and in their order. -/
theorem map_subject_declarations :
    (declarations (Line.ofText s.text.toList)).map Declaration.subject =
      s.flags.map (fun name => (NameKind.flag, name)) ++
        s.pages.map fun page => (NameKind.page, page.name) := by
  have hheader : (Line.ofRaw 1 (Keyword.define.line [quotation s.name])).declarations = [] := by
    rw [Line.declarations, Keyword.define.keyword?_line s.isSolid_header]
  rw [s.ofText_text, lines, checkLines_cons, declarations, List.flatMap_cons, hheader,
    List.nil_append, ← declarations, checkLines_append, declarations_append, List.map_append,
    s.map_subject_flagLines, s.map_subject_pages fun page hpage => hpage]

theorem declaredNames_page :
    declaredNames .page (declarations (Line.ofText s.text.toList)) = s.pages.map Page.name := by
  rw [declaredNames_eq, s.map_subject_declarations, List.filterMap_append, List.filterMap_map,
    List.filterMap_map]
  simp

theorem declaredNames_flag :
    declaredNames .flag (declarations (Line.ofText s.text.toList)) = s.flags := by
  rw [declaredNames_eq, s.map_subject_declarations, List.filterMap_append, List.filterMap_map,
    List.filterMap_map]
  simp

/-- No name is declared twice: pages and flags are told apart. -/
theorem nodup_subjects :
    ((declarations (Line.ofText s.text.toList)).map Declaration.subject).Nodup := by
  have hinj : ∀ kind : NameKind, Function.Injective fun name : String => (kind, name) :=
    fun _ _ _ h => (Prod.mk.inj h).2
  rw [s.map_subject_declarations, List.nodup_append]
  refine ⟨?_, ?_, ?_⟩
  · exact List.Nodup.map (hinj .flag) s.nodup_flags
  · have hpages := List.Nodup.map (hinj .page) s.nodup_pages
    rwa [List.map_map] at hpages
  · intro a ha b hb hab
    obtain ⟨f, -, rfl⟩ := List.mem_map.1 ha
    obtain ⟨p, -, rfl⟩ := List.mem_map.1 hb
    exact absurd (Prod.mk.inj hab).1 (by decide)

/-! ## Headers -/

/-- Only the first line opens with DEFINE. -/
theorem keyword?_ne_define (n : Nat) : ∀ raw ∈ flagLines s.flags ++ s.pages.flatMap Page.lines,
    (Line.ofRaw n raw).keyword? ≠ some .define := by
  intro raw hraw
  rcases List.mem_append.1 hraw with hraw | hraw
  · unfold flagLines at hraw
    split at hraw
    next => exact absurd hraw (by simp)
    next =>
      rw [List.mem_singleton.1 hraw, Keyword.flag.keyword?_line (isSolid_flagWords s.isName_flag)]
      decide
  · obtain ⟨page, hpage, hraw⟩ := List.mem_flatMap.1 hraw
    rcases List.mem_cons.1 hraw with rfl | hraw
    · rw [Keyword.page.keyword?_line
        (isSolid_of_mem_singleton (isPlain_pageWord (s.isName_page page hpage)).isSolid)]
      decide
    · exact (s.isCommandLine_of_mem hpage raw hraw).keyword?_ne n (by decide)

theorem repeatedHeaderMarks_eq_nil : repeatedHeaderMarks (Line.ofText s.text.toList) = [] := by
  have hrest : (checkLines 2 (flagLines s.flags ++ s.pages.flatMap Page.lines)).filter
      (fun line => line.keyword? = some .define) = [] := by
    refine List.filter_eq_nil_iff.2 fun line hline => ?_
    obtain ⟨m, raw, hraw, rfl⟩ := mem_checkLines hline
    rw [decide_eq_true_eq]
    exact s.keyword?_ne_define m raw hraw
  have hfilter : (Line.ofText s.text.toList).filter (fun line => line.keyword? = some .define) =
      [Line.ofRaw 1 (Keyword.define.line [quotation s.name])] := by
    rw [s.ofText_text, lines, checkLines_cons, List.filter_cons_of_pos, hrest]
    rw [decide_eq_true_eq]
    exact Keyword.define.keyword?_line s.isSolid_header 1
  rw [repeatedHeaderMarks, hfilter]
  rfl

theorem headerFindings_eq_nil : headerFindings (Line.ofText s.text.toList) = [] := by
  rw [s.ofText_text, lines, checkLines_cons]
  refine if_pos ?_
  rw [Line.trimmed_ofRaw, Keyword.define.trim_line s.isSolid_header, startsWith_iff]
  exact ⟨_, rfl⟩

/-! ## The whole text -/

theorem clean_flagLines {d : Declared} (hcatalog : d.catalog = .empty) (hflags : d.flags = s.flags)
    (n : Nat) (t : CheckState) : Clean d t (checkLines n (flagLines s.flags)) := by
  unfold flagLines
  split
  next => exact Clean.nil
  next hne =>
    have hharmless : ∀ w ∈ s.flags.map flagWord, Harmless d.pages d.flags (blankQuoted w) := by
      intro w hw
      obtain ⟨f, hf, rfl⟩ := List.mem_map.1 hw
      exact Harmless.blankQuoted (isPlain_flagWord (s.isName_flag f hf)).quote_notMem
        (Harmless.flagWord (hflags ▸ hf) (s.isName_flag f hf))
    refine Clean.keyword hcatalog rfl (by decide) (isSolid_flagWords s.isName_flag) hharmless ?_
      Clean.nil
    intro specs hspecs
    rw [← Arity.fixed.inj hspecs]
    refine .repeatable (by simpa using hne) rfl fun w hw => ?_
    obtain ⟨f, hf, rfl⟩ := List.mem_map.1 hw
    exact accepts_flagWord (s.isName_flag f hf)

theorem clean_text {d : Declared} (hcatalog : d.catalog = .empty)
    (hpages : d.pages = s.pages.map Page.name) (hflags : d.flags = s.flags) :
    Clean d .initial (Line.ofText s.text.toList) := by
  have hpageNames : ∀ name ∈ d.pages, IsName name := by
    rw [hpages]
    exact s.isName_of_mem_pages
  have hflagNames : ∀ name ∈ d.flags, IsName name := by
    rw [hflags]
    exact s.isName_flag
  have hheader : ∀ w ∈ [quotation s.name], Harmless d.pages d.flags (blankQuoted w) := by
    intro w hw
    rw [List.mem_singleton.1 hw]
    exact Harmless.quotation s.isQuotable_name
  rw [s.ofText_text, lines, checkLines_cons]
  refine Clean.keyword hcatalog rfl (by decide) s.isSolid_header hheader ?_ ?_
  · intro specs hspecs
    rw [← Arity.fixed.inj hspecs]
    exact .singleton (accepts_quotation s.isQuotable_name)
  · rw [checkLines_append]
    refine Clean.append (s.clean_flagLines hcatalog hflags 2 _)
      (Clean.flatMap (fun page hpage n t => ?_) _)
    refine clean_page hcatalog hpageNames hflagNames ?_ ?_ n t
    · rw [hpages]
      exact List.mem_map_of_mem hpage
    · rw [hpages, hflags]
      exact s.wellFormed page hpage

/-- **No error is found in the text of a story.** -/
theorem accepted_text : Accepted .empty s.text := by
  have hduplicate : duplicateMarks [] (declarations (Line.ofText s.text.toList)) = [] :=
    duplicateMarks_eq_nil s.nodup_subjects fun d _ => List.not_mem_nil
  have hclean : Clean (Declared.ofLines .empty (Line.ofText s.text.toList)) .initial
      (Line.ofText s.text.toList) :=
    s.clean_text (Declared.ofLines_catalog _ _)
      ((Declared.ofLines_pages _ _).trans s.declaredNames_page)
      ((Declared.ofLines_flags _ _).trans s.declaredNames_flag)
  refine accepted_of_marks s.headerFindings_eq_nil fun m hm => ?_
  rw [allMarks, s.repeatedHeaderMarks_eq_nil, hduplicate, List.nil_append, List.nil_append] at hm
  exact hclean m hm

end Story

/-- **What is written is read back, and accepted.** Every story, written down line by line, is read as
exactly that story: its name, and its pages with all their commands, in their order. And the checks
find no error in it. -/
theorem story_roundtrip (s : Story) :
    (∃ script, Script.read s.text = .ok script ∧ script.name = s.name ∧ script.pages = s.pages) ∧
      Accepted .empty s.text :=
  ⟨s.read_text, s.accepted_text⟩

/-- The story of two pages is read back from its text, with its menu and its command, although what
it quotes looks like a comment, a flag and a page. -/
theorem story_roundtrip_ruinsStory :
    (∃ script, Script.read ruinsText = .ok script ∧ script.name = "Ruins // of Ash" ∧
      script.pages = ruinsStory.pages) ∧ Accepted .empty ruinsText := by
  rw [← text_ruinsStory]
  exact story_roundtrip ruinsStory

end Gamebook
