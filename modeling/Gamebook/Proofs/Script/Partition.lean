import Gamebook.Proofs.Script.Block
import Mathlib.Data.List.Induction
import Mathlib.Data.List.Nodup
import Mathlib.Data.List.TakeWhile

/-!
Gamebook.Proofs.Script.Partition — how the lines of a text are parted into pages.

The reader carries the page that it is reading and puts it among the others when a PAGE or DEFINE
line closes it. Seen as a whole, each PAGE line with a name starts a section that ends in front of
the next PAGE or DEFINE line; every other line stands outside (`Partition`).

* `Reader.names_foldl`: the pages have the names of the PAGE lines, each where it came first.
* `Reader.mem_run`, `Reader.exists_section_of_mem_run`: the last section of a name is the page of
  that name, and there are no other pages.
* `Reader.run_append_outside`: lines outside all sections could as well not be there.

The first is an induction over the lines in front, the second one goes on behind the section: no
later line touches a page of another name (`Reader.Keeps`).
-/

namespace Gamebook

/-! ## Sections -/

/-- The line closes the page in front of it. -/
def CodeLine.closesPage (line : CodeLine) : Bool := line.opensWith .page || line.opensWith .define

/-- The lines that still belong to a page: those in front of the next PAGE or DEFINE line. -/
def pageBody (lines : List CodeLine) : List CodeLine := lines.takeWhile fun l => !l.closesPage

/-- The name of the page that is open behind the lines: the one that the last PAGE or DEFINE line
among them starts. -/
def openPageName? (lines : List CodeLine) : Option String :=
  (lines.filter CodeLine.closesPage).getLast?.bind CodeLine.pageName?

/-- The pages are what the lines make up. -/
structure Partition (lines : List CodeLine) (pages : List Page) : Prop where
  /-- There is one page for each name of a PAGE line, in the order in which the names came first. -/
  names : pages.map Page.name = (lines.filterMap CodeLine.pageName?).eraseDups
  /-- A page is what stands behind the last PAGE line of its name, up to the next PAGE or DEFINE
  line. -/
  body : ∀ page ∈ pages, ∃ before line after, lines = before ++ line :: after ∧
    line.pageName? = some page.name ∧ (∀ l ∈ after, l.pageName? ≠ some page.name) ∧
      page.commands = (cut (pageBody after)).flatMap Block.commands
  /-- Lines in front of which no page is open make no difference. -/
  outside : ∀ before others after, lines = before ++ others ++ after →
    openPageName? before = none → (∀ l ∈ others, l.closesPage = false) →
      pages = Reader.run (before ++ after)

/-! ## Lines that start and close pages -/

theorem CodeLine.closesPage_eq_false {line : CodeLine} (h : line.closesPage = false) :
    line.opensWith .page = false ∧ line.opensWith .define = false :=
  Bool.or_eq_false_iff.1 h

/-! ## Names -/

/-- The names that came first, with one name more. -/
theorem insertNew_eraseDups (names : List String) (name : String) :
    insertNew names.eraseDups name = (names ++ [name]).eraseDups := by
  rw [List.eraseDups_append, insertNew]
  by_cases hname : name ∈ names
  · have hold : [name].removeAll names = [] := by simp [List.removeAll, hname]
    rw [if_pos (List.mem_eraseDups.2 hname), hold]
    exact (List.append_nil _).symm
  · have hnew : [name].removeAll names = [name] := by simp [List.removeAll, hname]
    rw [if_neg (mt List.mem_eraseDups.1 hname), hnew]
    rfl

namespace Reader

/-- **The names of the pages** are the names of the PAGE lines, each where it came first. -/
theorem names_foldl (lines : List CodeLine) :
    (lines.foldl step empty).names = (lines.filterMap CodeLine.pageName?).eraseDups := by
  induction lines using List.reverseRecOn with
  | nil => rfl
  | append_singleton lines line ih =>
    rw [List.foldl_append, List.foldl_cons, List.foldl_nil, names_step, ih, List.filterMap_append]
    cases hname : line.pageName? with
    | none => simp [hname]
    | some name => simp [hname, insertNew_eraseDups]

/-- No two pages have the same name. -/
theorem nodup_names_foldl : ∀ (lines : List CodeLine) {r : Reader}, r.names.Nodup →
    (lines.foldl step r).names.Nodup
  | [], _, h => h
  | line :: lines, r, h => by
      refine nodup_names_foldl lines ?_
      rw [names_step]
      cases line.pageName? with
      | none => exact h
      | some name => exact nodup_insertNew h name

/-! ## The last section of a name -/

/-- The page is among those that were read, and the page that is being read has another name. -/
structure Keeps (page : Page) (r : Reader) : Prop where
  /-- The page was read. -/
  mem : page ∈ r.pages
  /-- The page that is being read cannot take its place. -/
  other : ∀ p ∈ r.current, p.name ≠ page.name

theorem Keeps.mem_close {page : Page} {r : Reader} (h : Keeps page r) : page ∈ r.close.pages := by
  unfold close
  split
  next => exact h.mem
  next p hp => exact Page.mem_insert_of_ne (h.other p hp) h.mem

/-- **A line that does not start a page of its name leaves a page as it is.** -/
theorem Keeps.step {page : Page} {r : Reader} (h : Keeps page r) {line : CodeLine}
    (hline : line.pageName? ≠ some page.name) : Keeps page (r.step line) := by
  unfold Reader.step
  split
  next hpage =>
    refine ⟨h.mem_close, fun p hp => ?_⟩
    rw [CodeLine.ofLine?_of_opensWith hpage] at hp
    obtain ⟨name, hname, rfl⟩ := Option.map_eq_some_iff.1 hp
    intro heq
    rw [hname, ← heq] at hline
    exact hline rfl
  next =>
    split
    next =>
      refine ⟨h.mem_close, fun p hp => ?_⟩
      rw [current_close] at hp
      exact absurd hp (by simp)
    next =>
      refine ⟨h.mem, fun p hp => ?_⟩
      obtain ⟨q, hq, rfl⟩ := Option.map_eq_some_iff.1 hp
      rw [OpenPage.name_push]
      exact h.other q hq

theorem Keeps.foldl {page : Page} : ∀ {lines : List CodeLine} {r : Reader}, Keeps page r →
    (∀ l ∈ lines, l.pageName? ≠ some page.name) → Keeps page (lines.foldl Reader.step r)
  | [], _, h, _ => h
  | line :: _, _, h, hlines =>
      (h.step (hlines line List.mem_cons_self)).foldl
        fun l hl => hlines l (List.mem_cons_of_mem _ hl)

/-- What a line does that closes the open page: the page is among the others then. -/
theorem keeps_step_of_closesPage {pages : List Page} {p : OpenPage} {line : CodeLine}
    (hcloses : line.closesPage = true) (hline : line.pageName? ≠ some p.name) :
    Keeps p.finish (step ⟨pages, some p⟩ line) := by
  have hmem : p.finish ∈ (close ⟨pages, some p⟩).pages := Page.mem_insert_self _ _
  unfold step
  split
  next hpage =>
    refine ⟨hmem, fun q hq => ?_⟩
    rw [CodeLine.ofLine?_of_opensWith hpage] at hq
    obtain ⟨name, hname, rfl⟩ := Option.map_eq_some_iff.1 hq
    intro heq
    rw [hname] at hline
    exact hline (congrArg some heq)
  next hpage =>
    split
    next => exact ⟨hmem, fun q hq => absurd hq (by rw [current_close]; simp)⟩
    next hdefine =>
      rw [CodeLine.closesPage, Bool.or_eq_true] at hcloses
      exact absurd hcloses (not_or.2 ⟨hpage, hdefine⟩)

theorem closesPage_of_mem_pageBody {lines : List CodeLine} :
    ∀ l ∈ pageBody lines, l.closesPage = false := by
  intro l hl
  simpa using List.mem_takeWhile_imp hl

/-- **The last section of a name is the page of that name.** -/
theorem mem_run {before after : List CodeLine} {line : CodeLine} {name : String}
    (hline : line.pageName? = some name) (hafter : ∀ l ∈ after, l.pageName? ≠ some name) :
    ⟨name, (cut (pageBody after)).flatMap Block.commands⟩ ∈ run (before ++ line :: after) := by
  obtain ⟨hopens, hpage⟩ := CodeLine.opensWith_of_pageName? hline
  have hstart : (before.foldl step empty).step line =
      ⟨(before.foldl step empty).close.pages, some ⟨name, [], none⟩⟩ := by
    rw [step, if_pos hopens, hpage]
  have hbody := foldl_step_of_current (before.foldl step empty).close.pages (pageBody after)
    ⟨name, [], none⟩ fun l hl => CodeLine.closesPage_eq_false (closesPage_of_mem_pageBody l hl)
  have hfinish := OpenPage.foldl_push_cut (isCut_cut (pageBody after)) name []
  rw [List.nil_append] at hfinish
  have hname : ((pageBody after).foldl OpenPage.push ⟨name, [], none⟩).name = name :=
    congrArg Page.name hfinish
  have hsplit : after = pageBody after ++ after.dropWhile fun l => !l.closesPage :=
    List.takeWhile_append_dropWhile.symm
  rw [run, List.foldl_append, List.foldl_cons, hstart, hsplit, List.foldl_append, ← hsplit, hbody,
    ← hfinish]
  cases hrest : after.dropWhile fun l => !l.closesPage with
  | nil => exact Page.mem_insert_self _ _
  | cons next rest =>
    -- The line behind the section closes the page, and no later line touches it.
    have hnext : next.closesPage = true := by
      have := List.head?_dropWhile_not (fun l : CodeLine => !l.closesPage) after
      rw [hrest] at this
      simpa using this
    have hothers : ∀ l ∈ next :: rest, l.pageName? ≠ some name := by
      intro l hl
      refine hafter l ?_
      rw [hsplit, hrest]
      exact List.mem_append_right _ hl
    rw [List.foldl_cons]
    refine ((keeps_step_of_closesPage hnext ?_).foldl ?_).mem_close
    · rw [hname]
      exact hothers next List.mem_cons_self
    · rw [hfinish]
      exact fun l hl => hothers l (List.mem_cons_of_mem _ hl)

/-- The last of the lines that start a page of this name. -/
theorem exists_last_of_mem {name : String} : ∀ {lines : List CodeLine},
    name ∈ lines.filterMap CodeLine.pageName? → ∃ before line after,
      lines = before ++ line :: after ∧ line.pageName? = some name ∧
        ∀ l ∈ after, l.pageName? ≠ some name
  | [], h => absurd h (by simp)
  | line :: lines, h => by
      by_cases htail : name ∈ lines.filterMap CodeLine.pageName?
      · obtain ⟨before, l, after, rfl, hl, hafter⟩ := exists_last_of_mem htail
        exact ⟨line :: before, l, after, rfl, hl, hafter⟩
      · refine ⟨[], line, lines, rfl, ?_, fun l hl hname => ?_⟩
        · rw [List.filterMap_cons] at h
          split at h
          next => exact absurd h htail
          next other hother =>
            rcases List.mem_cons.1 h with rfl | h
            · exact hother
            · exact absurd h htail
        · exact htail (List.mem_filterMap.2 ⟨l, hl, hname⟩)

/-- **Each page is the last section of its name.** -/
theorem exists_section_of_mem_run {lines : List CodeLine} {page : Page} (h : page ∈ run lines) :
    ∃ before line after, lines = before ++ line :: after ∧ line.pageName? = some page.name ∧
      (∀ l ∈ after, l.pageName? ≠ some page.name) ∧
        page.commands = (cut (pageBody after)).flatMap Block.commands := by
  have hnodup : ((run lines).map Page.name).Nodup :=
    nodup_names_foldl lines (r := empty) List.nodup_nil
  have hname : page.name ∈ lines.filterMap CodeLine.pageName? := by
    rw [← List.mem_eraseDups, ← names_foldl]
    exact List.mem_map_of_mem h
  obtain ⟨before, line, after, rfl, hline, hafter⟩ := exists_last_of_mem hname
  have hpage := List.inj_on_of_nodup_map hnodup h (mem_run hline hafter) rfl
  exact ⟨before, line, after, rfl, hline, hafter, congrArg Page.commands hpage⟩

/-! ## Lines outside all sections -/

/-- The page that is being read is the one that the last PAGE or DEFINE line starts. -/
theorem name_current_foldl (lines : List CodeLine) :
    (lines.foldl step empty).current.map OpenPage.name = openPageName? lines := by
  induction lines using List.reverseRecOn with
  | nil => rfl
  | append_singleton lines line ih =>
    rw [List.foldl_append, List.foldl_cons, List.foldl_nil, openPageName?, List.filter_append]
    by_cases hcloses : line.closesPage = true
    · rw [List.filter_cons_of_pos hcloses, List.filter_nil, List.getLast?_concat, Option.bind_some,
        step]
      split
      next hpage =>
        rw [CodeLine.ofLine?_of_opensWith hpage, Option.map_map]
        cases line.pageName? <;> rfl
      next hpage =>
        rw [CodeLine.closesPage, Bool.or_eq_true] at hcloses
        rw [if_pos (hcloses.resolve_left hpage), current_close,
          CodeLine.pageName?_of_opensWith hpage]
        rfl
    · obtain ⟨hpage, hdefine⟩ := CodeLine.closesPage_eq_false ((Bool.not_eq_true _).mp hcloses)
      rw [List.filter_cons_of_neg hcloses, List.filter_nil, List.append_nil, ← openPageName?, ← ih,
        step, hpage, hdefine]
      cases (lines.foldl step empty).current with
      | none => rfl
      | some p => exact congrArg some (p.name_push line)

/-- Without an open page, lines of the story are passed over. -/
theorem foldl_step_of_none : ∀ {lines : List CodeLine} {r : Reader}, r.current = none →
    (∀ l ∈ lines, l.closesPage = false) → lines.foldl step r = r
  | [], _, _, _ => rfl
  | line :: lines, r, hr, h => by
      obtain ⟨hpage, hdefine⟩ := CodeLine.closesPage_eq_false (h line List.mem_cons_self)
      have hstep : r.step line = r := by
        rw [step, hpage, hdefine, hr]
        cases r
        subst hr
        rfl
      rw [List.foldl_cons, hstep]
      exact foldl_step_of_none hr fun l hl => h l (List.mem_cons_of_mem _ hl)

/-- **Lines outside all sections could as well not be there.** -/
theorem run_append_outside {before others : List CodeLine} (after : List CodeLine)
    (hbefore : openPageName? before = none) (hothers : ∀ l ∈ others, l.closesPage = false) :
    run (before ++ others ++ after) = run (before ++ after) := by
  have hcurrent : (before.foldl step empty).current = none := by
    rw [← name_current_foldl] at hbefore
    exact Option.map_eq_none_iff.1 hbefore
  rw [run, run, List.foldl_append, List.foldl_append, List.foldl_append,
    foldl_step_of_none hcurrent hothers]

end Reader

/-- **The pages are what the lines make up.** -/
theorem partition_run (lines : List CodeLine) : Partition lines (Reader.run lines) where
  names := Reader.names_foldl lines
  body _ hpage := Reader.exists_section_of_mem_run hpage
  outside := by
    rintro before others after rfl hbefore hothers
    exact Reader.run_append_outside after hbefore hothers

/-- **A text without a header cannot be read; the lines of any other text are parted into its
pages.** -/
theorem read_partition (text : String) :
    (Script.read text = .error .missingHeader ↔
      ∀ l ∈ codeLines text.toList, l.opensWith .define = false) ∧
    ((∃ l ∈ codeLines text.toList, l.opensWith .define = true) →
      ∃ script, Script.read text = .ok script ∧
        Partition (codeLines text.toList) script.pages) := by
  have hcases : (Script.read text = .error .missingHeader ∧
        ∀ l ∈ codeLines text.toList, l.opensWith .define = false) ∨
      ∃ script, Script.read text = .ok script ∧ script.pages = Reader.run (codeLines text.toList) ∧
        ∃ l ∈ codeLines text.toList, l.opensWith .define = true := by
    rw [Script.read]
    cases hfind : (codeLines text.toList).find? fun line => line.opensWith .define with
    | none =>
      refine Or.inl ⟨rfl, fun l hl => ?_⟩
      exact (Bool.not_eq_true _).mp (List.find?_eq_none.1 hfind l hl)
    | some header =>
      refine Or.inr ⟨_, rfl, rfl, header, List.mem_of_find?_eq_some hfind, ?_⟩
      exact List.find?_some (p := fun line => CodeLine.opensWith line .define) hfind
  rcases hcases with ⟨hread, hnone⟩ | ⟨script, hread, hpages, header, hmem, hheader⟩
  · refine ⟨⟨fun _ => hnone, fun _ => hread⟩, ?_⟩
    rintro ⟨l, hl, hdefine⟩
    rw [hnone l hl] at hdefine
    exact absurd hdefine (by decide)
  · refine ⟨⟨?_, ?_⟩, fun _ => ⟨script, hread, ?_⟩⟩
    · intro herror
      rw [hread] at herror
      exact absurd herror (by simp)
    · intro hnone
      rw [hnone header hmem] at hheader
      exact absurd hheader (by decide)
    · rw [hpages]
      exact partition_run _

/-- The second section of `a` takes the place of the first one, and the line behind DEFINE is on no
page. -/
example : Reader.run (codeLines
      "PAGE @a\nBACK\nPAGE @b\nBACK\nDEFINE \"d\"\nRETURN\nPAGE @a\nRETURN".toList) =
    [⟨"a", [.pageEnd .ret]⟩, ⟨"b", [.pageEnd .back]⟩] := by
  decide +kernel

end Gamebook
