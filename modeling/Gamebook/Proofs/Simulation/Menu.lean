import Gamebook.Proofs.Check.Line
import Gamebook.Proofs.Script.Reader
import Gamebook.Check.Report

/-!
Gamebook.Proofs.Simulation.Menu — two machines follow the open menu.

The reader collects the IS lines of a menu on the page that it is reading. The checks follow the
same menu with a flag and a counter, and remember the last line of code. Both walk down the same
lines, and on a page they stay in step (`InStep`): the state of the checks is what can be said of
the reader's menu, and the line of code before is a CHOICE or IS line exactly when a menu is open.

`inStep_step` is the step, one case for each keyword, and `inStep_behind` the run. A keyword with a
comment right behind it is a keyword for the reader only, so the text must not hold one
(`NoGluedComment`).
-/

namespace Gamebook

open Text

/-! ## States -/

/-- What the checks know of a menu. -/
def OpenMenu.state (menu : OpenMenu) : MenuState := ⟨menu.time.isSome, menu.options.length⟩

/-- No line of the text is a keyword with a comment right behind it. -/
def NoGluedComment (text : List Char) : Prop :=
  ∀ raw ∈ lines text, ∀ k ∈ Keyword.all, startsWith (k.letters ++ ['/', '/']) (trim raw) = false

instance (text : List Char) : Decidable (NoGluedComment text) :=
  inferInstanceAs (Decidable (∀ raw ∈ lines text, _))

theorem NoGluedComment.ne {text raw : List Char} (h : NoGluedComment text) (hraw : raw ∈ lines text)
    (k : Keyword) (r : List Char) : trim raw ≠ k.letters ++ '/' :: '/' :: r := by
  intro heq
  have hstart : startsWith (k.letters ++ ['/', '/']) (trim raw) = true :=
    startsWith_iff.2 ⟨r, by rw [heq, List.append_assoc]; rfl⟩
  rw [h raw hraw k k.mem_all] at hstart
  exact absurd hstart (by decide)

/-- The state of the checks behind the lines. -/
def checkStateBehind (lines : List (Nat × List Char)) : CheckState :=
  (lines.map fun (n, raw) => Line.ofRaw n raw).foldl CheckState.next .initial

/-- The state of the reader behind the lines. -/
def readerBehind (lines : List (Nat × List Char)) : Reader :=
  (codeLinesOf lines).foldl Reader.step .empty

/-- The checks are in step with the page that is being read. -/
structure InStep (s : CheckState) (p : OpenPage) : Prop where
  /-- They know the open menu. -/
  menu : s.menu = p.menu.map OpenMenu.state
  /-- The last line of code opens or continues a menu exactly when one is open. -/
  previous : ∃ line, s.previous = some line ∧
    (Keyword.choice.opens line.trimmed = true ∨ Keyword.is.opens line.trimmed = true ↔
      p.menu.isSome = true)

/-! ## Lines -/

variable {n : Nat} {raw : List Char} {line : CodeLine}

/-- Without a glued comment, reader and checks see the same keyword. -/
theorem CodeLine.opensWith_iff (hglue : ∀ (k : Keyword) r, trim raw ≠ k.letters ++ '/' :: '/' :: r)
    (hline : CodeLine.ofRaw? n raw = some line) {k : Keyword} :
    line.opensWith k = true ↔ (Line.ofRaw n raw).keyword? = some k := by
  constructor
  · intro h
    rcases Line.keyword?_of_opensWith hline h with hk | ⟨⟨r, hr⟩, -⟩
    · exact hk
    · exact absurd hr (hglue k r)
  · intro hk
    obtain ⟨source, hsource, -⟩ := CodeLine.ofRaw?_of_keyword? hk
    obtain rfl := Option.some.inj (hline.symm.trans hsource)
    exact beq_self_eq_true _

/-- The reader's time limit is there exactly when the checks accept one. -/
theorem CodeLine.isSome_time? (hk : (Line.ofRaw n raw).keyword? = some .choice)
    (hline : CodeLine.ofRaw? n raw = some line) :
    line.time?.isSome =
      ((Line.ofRaw n raw).arguments .choice).any fun a => ArgKind.time.accepts a.text := by
  obtain ⟨source, hsource, -⟩ := CodeLine.ofRaw?_of_keyword? hk
  obtain rfl := Option.some.inj (hline.symm.trans hsource)
  rw [Bool.eq_iff_iff, List.any_eq_true, CodeLine.time?, List.findSome?_isSome_iff]
  constructor
  · rintro ⟨token, htoken, htime⟩
    rcases List.mem_cons.1 htoken with rfl | htoken
    · exact absurd htime (by simp)
    · obtain ⟨a, ha, rfl⟩ := List.mem_map.1 htoken
      refine ⟨a, ha, Token.accepts_time_iff.2 ?_⟩
      cases hw : Token.ofWord a.text with
      | time t => exact ⟨t, rfl⟩
      | _ => rw [hw] at htime; exact absurd htime (by simp)
  · rintro ⟨a, ha, haccepts⟩
    obtain ⟨t, ht⟩ := Token.accepts_time_iff.1 haccepts
    exact ⟨.time t, List.mem_cons_of_mem _ (List.mem_map.2 ⟨a, ha, ht⟩), rfl⟩

/-! ## Pages -/

namespace OpenPage

theorem menu_push_choice (p : OpenPage) (h : line.opensWith .choice = true) :
    (p.push line).menu = some ⟨line.time?, []⟩ := by
  rw [push, if_pos h]

theorem menu_push_is (p : OpenPage) (hchoice : ¬ line.opensWith .choice = true)
    (h : line.opensWith .is = true) :
    (p.push line).menu =
      some ⟨(p.menu.getD ⟨none, []⟩).time, (p.menu.getD ⟨none, []⟩).options ++ [line]⟩ := by
  rw [push, if_neg hchoice, if_pos h]

theorem menu_push_other (p : OpenPage) (hchoice : ¬ line.opensWith .choice = true)
    (h : ¬ line.opensWith .is = true) : (p.push line).menu = none := by
  rw [push, if_neg hchoice, if_neg h]
  exact menu_flush p

end OpenPage

/-! ## The step -/

/-- A line that is neither CHOICE nor IS leaves no menu open, on either side. -/
theorem inStep_of_none {s : CheckState} {p : OpenPage}
    (hchoice : (Line.ofRaw n raw).keyword? ≠ some .choice)
    (his : (Line.ofRaw n raw).keyword? ≠ some .is)
    (hcode : (Line.ofRaw n raw).isCode = true) (hp : p.menu = none) :
    InStep (s.next (Line.ofRaw n raw)) p := by
  rw [CheckState.next, if_pos hcode]
  refine ⟨?_, Line.ofRaw n raw, rfl, ?_⟩
  · rw [hp, Option.map_none]
    show MenuState.next s.menu (Line.ofRaw n raw) = none
    unfold MenuState.next
    split
    next h => exact absurd h hchoice
    next h => exact absurd h his
    next => rfl
  · rw [hp, Line.opens_trimmed_iff, Line.opens_trimmed_iff]
    exact ⟨fun h => absurd h (not_or.2 ⟨hchoice, his⟩), fun h => absurd h (by simp)⟩

/-- One line of a page keeps the two in step. -/
theorem inStep_push (hglue : ∀ (k : Keyword) r, trim raw ≠ k.letters ++ '/' :: '/' :: r)
    (hline : CodeLine.ofRaw? n raw = some line) {s : CheckState} {p : OpenPage} (h : InStep s p) :
    InStep (s.next (Line.ofRaw n raw)) (p.push line) := by
  have hcode : (Line.ofRaw n raw).isCode = true :=
    Line.isCode_iff.2 (CodeLine.ofRaw?_eq_some_iff.1 hline).1
  have hopens := fun k => CodeLine.opensWith_iff (k := k) hglue hline
  by_cases hchoice : (Line.ofRaw n raw).keyword? = some .choice
  · rw [CheckState.next, if_pos hcode]
    have hmenu := p.menu_push_choice ((hopens .choice).2 hchoice)
    refine ⟨?_, Line.ofRaw n raw, rfl, ?_⟩
    · show MenuState.next s.menu (Line.ofRaw n raw) = _
      rw [hmenu, MenuState.next, hchoice, ← CodeLine.isSome_time? hchoice hline]
      rfl
    · rw [hmenu, Line.opens_trimmed_iff]
      exact ⟨fun _ => rfl, fun _ => Or.inl hchoice⟩
  · by_cases his : (Line.ofRaw n raw).keyword? = some .is
    · rw [CheckState.next, if_pos hcode]
      have hmenu := p.menu_push_is (fun hc => hchoice ((hopens .choice).1 hc)) ((hopens .is).2 his)
      refine ⟨?_, Line.ofRaw n raw, rfl, ?_⟩
      · show MenuState.next s.menu (Line.ofRaw n raw) = _
        rw [hmenu, MenuState.next, his, h.menu]
        cases p.menu with
        | none => rfl
        | some menu => simp [OpenMenu.state]
      · rw [hmenu, Line.opens_trimmed_iff, Line.opens_trimmed_iff]
        exact ⟨fun _ => rfl, fun _ => Or.inr his⟩
    · exact inStep_of_none hchoice his hcode
        (p.menu_push_other (fun hc => hchoice ((hopens .choice).1 hc))
          (fun hi => his ((hopens .is).1 hi)))

/-- **The step.** A line keeps the checks in step with the page of the reader. -/
theorem inStep_step (hglue : ∀ (k : Keyword) r, trim raw ≠ k.letters ++ '/' :: '/' :: r)
    (hline : CodeLine.ofRaw? n raw = some line) {s : CheckState} {r : Reader}
    (h : ∀ p, r.current = some p → InStep s p) :
    ∀ p, (r.step line).current = some p → InStep (s.next (Line.ofRaw n raw)) p := by
  intro p hp
  have hcode : (Line.ofRaw n raw).isCode = true :=
    Line.isCode_iff.2 (CodeLine.ofRaw?_eq_some_iff.1 hline).1
  unfold Reader.step at hp
  split at hp
  next hpage =>
    have hk := (CodeLine.opensWith_iff hglue hline).1 hpage
    exact inStep_of_none (by rw [hk]; decide) (by rw [hk]; decide) hcode
      (OpenPage.ofLine?_eq_some hp).2
  next =>
    split at hp
    next =>
      rw [Reader.current_close] at hp
      exact absurd hp (by simp)
    next =>
      obtain ⟨q, hq, rfl⟩ := Option.map_eq_some_iff.1 hp
      exact inStep_push hglue hline (h q hq)

/-- Blank lines and comments change neither side. -/
theorem next_of_ofRaw?_eq_none (h : CodeLine.ofRaw? n raw = none) (s : CheckState) :
    s.next (Line.ofRaw n raw) = s := by
  rw [CheckState.next, if_neg]
  rw [CodeLine.ofRaw?_eq_none_iff.1 h]
  decide

/-! ## The run -/

theorem inStep_foldl : ∀ (ls : List (Nat × List Char)) (s : CheckState) (r : Reader),
    (∀ n raw, (n, raw) ∈ ls → ∀ (k : Keyword) t, trim raw ≠ k.letters ++ '/' :: '/' :: t) →
      (∀ p, r.current = some p → InStep s p) →
        ∀ p, ((codeLinesOf ls).foldl Reader.step r).current = some p →
          InStep ((ls.map fun (n, raw) => Line.ofRaw n raw).foldl CheckState.next s) p
  | [], _, _, _, h => h
  | (n, raw) :: ls, s, r, hglue, h => by
      intro p hp
      have hrest := fun m raw' hm => hglue m raw' (List.mem_cons_of_mem (n, raw) hm)
      cases hline : CodeLine.ofRaw? n raw with
      | none =>
        simp only [codeLinesOf, List.filterMap_cons, hline] at hp
        rw [List.map_cons, List.foldl_cons, next_of_ofRaw?_eq_none hline]
        exact inStep_foldl ls s r hrest h p hp
      | some line =>
        simp only [codeLinesOf, List.filterMap_cons, hline, List.foldl_cons] at hp
        rw [List.map_cons, List.foldl_cons]
        exact inStep_foldl ls _ _ hrest
          (inStep_step (hglue n raw List.mem_cons_self) hline h) p hp

/-- **The checks are in step with the reader** in front of every line. -/
theorem inStep_behind {text : List Char} (hglue : NoGluedComment text)
    {before after : List (Nat × List Char)} (hsplit : numberedLines text = before ++ after)
    {p : OpenPage} (hp : (readerBehind before).current = some p) :
    InStep (checkStateBehind before) p := by
  refine inStep_foldl before .initial .empty (fun n raw hmem => ?_) (fun q hq => ?_) p hp
  · refine hglue.ne (mem_of_mem_numberFrom (k := 1) (n := n) ?_)
    rw [← numberedLines, hsplit]
    exact List.mem_append_left _ hmem
  · exact absurd hq (by simp [Reader.empty])

/-! ## Blocks of IS lines -/

/-- The reader, in front of `line` on `page`, collects `line` and all IS lines that come next, behind
the options `earlier`, into `menu`. What follows is no IS line, so it flushes `menu`. -/
structure FlushesAs (r : Reader) (page : OpenPage) (line : CodeLine) (after : List CodeLine)
    (earlier : List CodeLine) (menu : OpenMenu) : Prop where
  /-- The options of the menu, up to the next line that is no IS line. -/
  options : ∃ later rest, after = later ++ rest ∧ menu.options = earlier ++ line :: later ∧
    (∀ l ∈ later, l.opensWith .is = true) ∧ (∀ l ∈ rest.head?, l.opensWith .is = false) ∧
      ((line :: later).foldl Reader.step r).current = some ⟨page.name, page.commands, some menu⟩
  /-- The commands behind the flush. -/
  flush : (OpenPage.mk page.name page.commands (some menu)).flush =
    ⟨page.name, page.commands ++ menu.commands, none⟩

/-- An IS line goes to the menu of its page. -/
theorem Reader.step_is {r : Reader} {page : OpenPage} (hpage : r.current = some page)
    (h : line.opensWith .is = true) :
    (r.step line).current = some ⟨page.name, page.commands,
      some ⟨(page.menu.getD ⟨none, []⟩).time, (page.menu.getD ⟨none, []⟩).options ++ [line]⟩⟩ := by
  have hne := fun (k : Keyword) (hk : Keyword.is ≠ k) => CodeLine.opensWith_eq_false h hk
  rw [Reader.step, hne .page (by decide), hne .define (by decide)]
  simp only [Bool.false_eq_true, if_false, hpage, Option.map_some]
  rw [OpenPage.push, hne .choice (by decide), h]
  rfl

theorem Reader.foldl_is : ∀ (ls : List CodeLine) {r : Reader} {page : OpenPage} {menu : OpenMenu},
    (∀ l ∈ ls, l.opensWith .is = true) →
      r.current = some ⟨page.name, page.commands, some menu⟩ →
        (ls.foldl Reader.step r).current =
          some ⟨page.name, page.commands, some ⟨menu.time, menu.options ++ ls⟩⟩
  | [], r, page, menu, _, h => by rw [List.append_nil]; exact h
  | l :: ls, r, page, menu, hls, h => by
      have hstep := Reader.step_is h (hls l List.mem_cons_self)
      rw [Option.getD_some] at hstep
      rw [List.foldl_cons, Reader.foldl_is ls (fun l' hl' => hls l' (List.mem_cons_of_mem _ hl'))
        hstep, List.append_assoc, List.singleton_append]

/-- **Every IS line of a page is flushed with its block.** -/
theorem exists_flushesAs {r : Reader} {page : OpenPage} (hpage : r.current = some page)
    (h : line.opensWith .is = true) (after : List CodeLine) :
    ∃ menu, FlushesAs r page line after (page.menu.getD ⟨none, []⟩).options menu ∧
      menu.time = (page.menu.getD ⟨none, []⟩).time := by
  have htake : ∀ l ∈ after.takeWhile fun l => l.opensWith .is, l.opensWith .is = true := by
    intro l hl
    exact List.mem_takeWhile_imp (p := fun l => CodeLine.opensWith l .is) hl
  refine ⟨⟨(page.menu.getD ⟨none, []⟩).time, (page.menu.getD ⟨none, []⟩).options ++
    line :: after.takeWhile fun l => l.opensWith .is⟩, ⟨⟨after.takeWhile fun l => l.opensWith .is,
      after.dropWhile fun l => l.opensWith .is, List.takeWhile_append_dropWhile.symm, rfl, htake,
      ?_, ?_⟩, rfl⟩, rfl⟩
  · intro l hl
    have := List.head?_dropWhile_not (fun l : CodeLine => l.opensWith .is) after
    rw [Option.mem_def.1 hl] at this
    simpa using this
  · rw [List.foldl_cons, Reader.foldl_is _ htake (Reader.step_is hpage h)]
    simp only [List.append_assoc, List.singleton_append]

end Gamebook
