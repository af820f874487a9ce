import Gamebook.Script.Reader

/-!
Gamebook.Proofs.Script.Reader — where the commands of a script come from.

The reader is a fold over the lines of code. Two facts about it are carried through all steps:

* Every command was read from lines (`Command.ReadFrom`): it is what one line stands for by itself,
  or it is part of a menu whose options are IS lines. `readFrom_run` is the invariant at the end of
  a run.
* A page that was opened stays among the pages (`name_mem_run`), also if a later page takes its
  place: all that a step does to the names of the pages is to add the one that its line opens
  (`names_step`).

`Command.ReadFrom.exists_line` draws the conclusion for jumps and options: each of them is what one
TO or IS line does. `Command.ReadFrom.exists_brokenLine` is the other side: a TO or IS line is broken
only if it has no destination.
-/

namespace Gamebook

/-- What the jumps and the options of a command do. -/
def Command.transitions : Command → List Transition
  | .goto t => [t]
  | .choice _ options => options.map ChoiceOption.transition
  | _ => []

/-- The command is what one of the lines stands for, or part of a menu of IS lines among them. -/
inductive Command.ReadFrom (lines : List CodeLine) : Command → Prop
  /-- What one line stands for by itself. An IS line never does. -/
  | line (line : CodeLine) (hline : line ∈ lines) (his : ¬ line.opensWith .is = true) :
      ReadFrom lines line.command
  /-- Part of a menu. -/
  | menu (menu : OpenMenu) (hoptions : ∀ l ∈ menu.options, l ∈ lines ∧ l.opensWith .is = true)
      (command : Command) (hcommand : command ∈ menu.commands) : ReadFrom lines command

/-- A line opens with one keyword at most. -/
theorem CodeLine.opensWith_eq_false {line : CodeLine} {j k : Keyword}
    (hj : line.opensWith j = true) (hne : j ≠ k) : line.opensWith k = false := by
  rw [← Bool.not_eq_true]
  intro hk
  have htoken := (eq_of_beq hj).symm.trans (eq_of_beq hk)
  rw [Option.some.injEq, Token.keyword.injEq] at htoken
  exact hne htoken

/-! ## Menus -/

theorem exists_of_mem_readOptions : ∀ {lines : List CodeLine} {previous : Option String}
    {o : ChoiceOption}, o ∈ (readOptions previous lines).1 →
      ∃ l ∈ lines, l.transition? = some o.transition
  | [], _, o, h => by simp [readOptions] at h
  | l :: lines, previous, o, h => by
      rw [readOptions] at h
      split at h
      next t ht =>
        rcases List.mem_cons.1 h with rfl | h
        · exact ⟨l, List.mem_cons_self, ht⟩
        · obtain ⟨l', hl', ho⟩ := exists_of_mem_readOptions h
          exact ⟨l', List.mem_cons_of_mem _ hl', ho⟩
      next =>
        obtain ⟨l', hl', ho⟩ := exists_of_mem_readOptions h
        exact ⟨l', List.mem_cons_of_mem _ hl', ho⟩

theorem exists_broken_of_mem_readOptions : ∀ {lines : List CodeLine} {previous : Option String}
    {c : Command}, c ∈ (readOptions previous lines).2 →
      ∃ l ∈ lines, c = l.broken ∧ l.transition? = none
  | [], _, c, h => by simp [readOptions] at h
  | l :: lines, previous, c, h => by
      rw [readOptions] at h
      split at h
      next =>
        obtain ⟨l', hl', hc⟩ := exists_broken_of_mem_readOptions h
        exact ⟨l', List.mem_cons_of_mem _ hl', hc⟩
      next hnone =>
        rcases List.mem_cons.1 h with rfl | h
        · exact ⟨l, List.mem_cons_self, rfl, hnone⟩
        · obtain ⟨l', hl', hc⟩ := exists_broken_of_mem_readOptions h
          exact ⟨l', List.mem_cons_of_mem _ hl', hc⟩

/-- A menu is one command and its broken lines, which lead nowhere. -/
theorem mem_commands_of_menu {menu : OpenMenu} {c : Command} (h : c ∈ menu.commands) :
    c = .choice menu.time (readOptions (some "") menu.options).1 ∨
      ∃ l ∈ menu.options, c = l.broken ∧ l.transition? = none := by
  rcases List.mem_cons.1 h with rfl | h
  · exact Or.inl rfl
  · exact Or.inr (exists_broken_of_mem_readOptions h)

/-! ## Steps -/

/-- All commands of the page, and the menu that is open on it, were read from the lines. -/
structure OpenPage.ReadFrom (lines : List CodeLine) (p : OpenPage) : Prop where
  /-- The commands up to now. -/
  commands : ∀ c ∈ p.commands, Command.ReadFrom lines c
  /-- The options of the open menu. -/
  options : ∀ menu ∈ p.menu, ∀ l ∈ menu.options, l ∈ lines ∧ l.opensWith .is = true

namespace OpenPage

theorem ReadFrom.flush {lines : List CodeLine} {p : OpenPage} (h : p.ReadFrom lines) :
    p.flush.ReadFrom lines ∧ p.flush.menu = none := by
  unfold OpenPage.flush
  split
  next hmenu => exact ⟨h, hmenu⟩
  next menu hmenu =>
    refine ⟨⟨?_, by simp⟩, rfl⟩
    intro c hc
    rcases List.mem_append.1 hc with hc | hc
    · exact h.commands c hc
    · exact .menu menu (h.options menu hmenu) c hc

theorem ReadFrom.push {lines : List CodeLine} {p : OpenPage} (h : p.ReadFrom lines)
    {line : CodeLine} (hline : line ∈ lines) : (p.push line).ReadFrom lines := by
  unfold OpenPage.push
  split
  next =>
    refine ⟨h.flush.1.commands, ?_⟩
    intro menu hmenu l hl
    obtain rfl : ⟨line.time?, []⟩ = menu := Option.some.inj hmenu
    exact absurd hl (by simp)
  next =>
    split
    next hopen =>
      refine ⟨h.commands, ?_⟩
      intro menu hmenu l hl
      obtain rfl := Option.some.inj hmenu
      rcases List.mem_append.1 hl with hl | hl
      · cases hm : p.menu with
        | none => rw [hm] at hl; exact absurd hl (by simp)
        | some m => rw [hm] at hl; exact h.options m hm l hl
      · rw [List.mem_singleton.1 hl]
        exact ⟨hline, hopen⟩
    next his =>
      refine ⟨?_, h.flush.1.options⟩
      intro c hc
      rcases List.mem_append.1 hc with hc | hc
      · exact h.flush.1.commands c hc
      · rw [List.mem_singleton.1 hc]
        exact .line line hline his

theorem name_flush (p : OpenPage) : p.flush.name = p.name := by
  unfold flush
  split <;> rfl

theorem menu_flush (p : OpenPage) : p.flush.menu = none := by
  unfold flush
  split
  next h => exact h
  next => rfl

theorem name_push (p : OpenPage) (line : CodeLine) : (p.push line).name = p.name := by
  unfold push
  split
  · exact name_flush p
  · split
    · rfl
    · exact name_flush p

/-- IS lines are added to the menu that is open. -/
theorem foldl_push_is (name : String) (commands : List Command) (time : Option TimeLimit) :
    ∀ (lines options : List CodeLine), (∀ l ∈ lines, l.opensWith .is = true) →
      lines.foldl push ⟨name, commands, some ⟨time, options⟩⟩ =
        ⟨name, commands, some ⟨time, options ++ lines⟩⟩
  | [], options, _ => by rw [List.append_nil]; rfl
  | l :: lines, options, h => by
      have his := h l List.mem_cons_self
      have hchoice := CodeLine.opensWith_eq_false his (k := .choice) (by decide)
      have hpush : push ⟨name, commands, some ⟨time, options⟩⟩ l =
          ⟨name, commands, some ⟨time, options ++ [l]⟩⟩ := by
        rw [push, hchoice, his]
        rfl
      rw [List.foldl_cons, hpush, foldl_push_is name commands time lines (options ++ [l])
        fun m hm => h m (List.mem_cons_of_mem _ hm), List.append_assoc]
      rfl

/-- A page starts without commands. -/
theorem ofLine?_eq_some {line : CodeLine} {p : OpenPage} (h : ofLine? line = some p) :
    p.commands = [] ∧ p.menu = none := by
  unfold ofLine? at h
  split at h
  next =>
    rw [← Option.some.inj h]
    exact ⟨rfl, rfl⟩
  next => exact absurd h (by simp)

end OpenPage

/-- All that the reader holds was read from the lines. -/
structure Reader.ReadFrom (lines : List CodeLine) (r : Reader) : Prop where
  /-- The finished pages. -/
  pages : ∀ page ∈ r.pages, ∀ c ∈ page.commands, Command.ReadFrom lines c
  /-- The page that is being read. -/
  current : ∀ p ∈ r.current, p.ReadFrom lines

/-- A page of a new name is put at the end. -/
theorem Page.insert_of_notMem {page : Page} : ∀ {ps : List Page},
    page.name ∉ ps.map Page.name → page.insert ps = ps ++ [page]
  | [], _ => rfl
  | p :: ps, h => by
      rw [List.map_cons, List.mem_cons, not_or] at h
      rw [Page.insert, if_neg (Ne.symm h.1), Page.insert_of_notMem h.2]
      rfl

/-- A page stays where a page of another name is put in. -/
theorem Page.mem_insert_of_ne {page q : Page} (hne : q.name ≠ page.name) :
    ∀ {pages : List Page}, page ∈ pages → page ∈ q.insert pages
  | [], h => absurd h (by simp)
  | p :: ps, h => by
      rw [Page.insert]
      split
      next hq =>
        rcases List.mem_cons.1 h with rfl | h
        · exact absurd hq.symm hne
        · exact List.mem_cons_of_mem _ h
      next =>
        rcases List.mem_cons.1 h with rfl | h
        · exact List.mem_cons_self
        · exact List.mem_cons_of_mem _ (Page.mem_insert_of_ne hne h)

/-- A page that was put in is there. -/
theorem Page.mem_insert_self (page : Page) : ∀ pages : List Page, page ∈ page.insert pages
  | [] => List.mem_singleton_self _
  | p :: ps => by
      rw [Page.insert]
      split
      · exact List.mem_cons_self
      · exact List.mem_cons_of_mem _ (Page.mem_insert_self page ps)

/-- What stands among the pages is the page that was put in, or stood there before. -/
theorem Page.mem_insert {page q : Page} : ∀ {pages : List Page}, q ∈ page.insert pages →
    q = page ∨ q ∈ pages
  | [], h => by
      rw [Page.insert, List.mem_singleton] at h
      exact Or.inl h
  | p :: ps, h => by
      rw [Page.insert] at h
      split at h
      next =>
        rcases List.mem_cons.1 h with h | h
        · exact Or.inl h
        · exact Or.inr (List.mem_cons_of_mem _ h)
      next =>
        rcases List.mem_cons.1 h with rfl | h
        · exact Or.inr List.mem_cons_self
        · exact (Page.mem_insert h).imp id (List.mem_cons_of_mem _)

/-! ## Lines that start a page -/

/-- The name of the page that the line starts: the line is the keyword PAGE and a name. -/
def CodeLine.pageName? (line : CodeLine) : Option String :=
  match line.tokens with
  | .keyword .page :: .page name :: _ => some name
  | _ => none

theorem CodeLine.opensWith_of_pageName? {line : CodeLine} {name : String}
    (h : line.pageName? = some name) :
    line.opensWith .page = true ∧ OpenPage.ofLine? line = some ⟨name, [], none⟩ := by
  unfold CodeLine.pageName? at h
  split at h
  next htokens =>
    obtain rfl := Option.some.inj h
    refine ⟨?_, ?_⟩
    · rw [CodeLine.opensWith, htokens]
      rfl
    · rw [OpenPage.ofLine?, htokens]
  next => exact absurd h (by simp)

theorem CodeLine.pageName?_of_opensWith {line : CodeLine} (h : ¬ line.opensWith .page = true) :
    line.pageName? = none := by
  cases hname : line.pageName? with
  | none => rfl
  | some name => exact absurd (CodeLine.opensWith_of_pageName? hname).1 h

theorem CodeLine.ofLine?_of_opensWith {line : CodeLine} (h : line.opensWith .page = true) :
    OpenPage.ofLine? line = line.pageName?.map fun name => ⟨name, [], none⟩ := by
  obtain ⟨tokens, htokens⟩ := List.head?_eq_some_iff.1 (eq_of_beq h)
  rw [OpenPage.ofLine?, CodeLine.pageName?, htokens]
  split
  next heq =>
    obtain ⟨-, rfl⟩ := List.cons.inj heq
    rfl
  next hne =>
    split
    next heq =>
      obtain ⟨-, rfl⟩ := List.cons.inj heq
      exact absurd rfl (hne _ _ _)
    next => rfl

namespace Reader

theorem ReadFrom.close {lines : List CodeLine} {r : Reader} (h : r.ReadFrom lines) :
    r.close.ReadFrom lines ∧ r.close.current = none := by
  unfold Reader.close
  split
  next hcurrent => exact ⟨h, hcurrent⟩
  next p hcurrent =>
    refine ⟨⟨?_, by simp⟩, rfl⟩
    intro page hpage c hc
    rcases Page.mem_insert hpage with rfl | hpage
    · exact (h.current p hcurrent).flush.1.commands c hc
    · exact h.pages page hpage c hc

/-- **One step reads from its line only.** -/
theorem ReadFrom.step {lines : List CodeLine} {r : Reader} (h : r.ReadFrom lines)
    {line : CodeLine} (hline : line ∈ lines) : (r.step line).ReadFrom lines := by
  unfold Reader.step
  split
  next =>
    refine ⟨h.close.1.pages, ?_⟩
    intro p hp
    obtain ⟨hcommands, hmenu⟩ := OpenPage.ofLine?_eq_some hp
    exact ⟨by simp [hcommands], by simp [hmenu]⟩
  next =>
    split
    next => exact h.close.1
    next =>
      refine ⟨h.pages, ?_⟩
      intro p hp
      obtain ⟨q, hq, rfl⟩ := Option.map_eq_some_iff.1 hp
      exact (h.current q hq).push hline

theorem ReadFrom.foldl {lines : List CodeLine} : ∀ (ls : List CodeLine) {r : Reader},
    r.ReadFrom lines → (∀ l ∈ ls, l ∈ lines) → (ls.foldl Reader.step r).ReadFrom lines
  | [], _, h, _ => h
  | l :: ls, _, h, hls =>
      ReadFrom.foldl ls (h.step (hls l List.mem_cons_self))
        (fun l' hl' => hls l' (List.mem_cons_of_mem _ hl'))

/-- **All commands of a script are read from its lines.** -/
theorem readFrom_run (lines : List CodeLine) :
    ∀ page ∈ run lines, ∀ c ∈ page.commands, Command.ReadFrom lines c := by
  have hempty : empty.ReadFrom lines := ⟨by simp [empty], by simp [empty]⟩
  exact (hempty.foldl lines fun _ hl => hl).close.1.pages

/-- Lines that start neither a page nor a header go to the page that is open. -/
theorem foldl_step_of_current (pages : List Page) : ∀ (lines : List CodeLine) (p : OpenPage),
    (∀ l ∈ lines, l.opensWith .page = false ∧ l.opensWith .define = false) →
      lines.foldl step ⟨pages, some p⟩ = ⟨pages, some (lines.foldl OpenPage.push p)⟩
  | [], _, _ => rfl
  | l :: lines, p, h => by
      obtain ⟨hpage, hdefine⟩ := h l List.mem_cons_self
      have hstep : step ⟨pages, some p⟩ l = ⟨pages, some (p.push l)⟩ := by
        rw [step, hpage, hdefine]
        rfl
      rw [List.foldl_cons, hstep, List.foldl_cons]
      exact foldl_step_of_current pages lines (p.push l) fun m hm => h m (List.mem_cons_of_mem _ hm)

/-! ## Names of pages -/

/-- The names that the pages will have if the text ends here. -/
def names (r : Reader) : List String := r.close.pages.map Page.name

theorem names_of_current {r : Reader} {p : OpenPage} (h : r.current = some p) :
    r.names = insertNew (r.pages.map Page.name) p.name := by
  rw [names, close, h]
  exact Page.map_name_insert p.finish r.pages

theorem names_of_none {r : Reader} (h : r.current = none) : r.names = r.pages.map Page.name := by
  rw [names, close, h]

theorem current_close (r : Reader) : r.close.current = none := by
  unfold close
  split
  next h => exact h
  next => rfl

theorem close_close (r : Reader) : r.close.close = r.close := by
  have h := current_close r
  rw [close, h]

/-- **What a step does to the names**: a PAGE line adds its name, if it is new. -/
theorem names_step (r : Reader) (line : CodeLine) :
    (r.step line).names = line.pageName?.elim r.names (insertNew r.names) := by
  by_cases hpage : line.opensWith .page = true
  · rw [step, if_pos hpage, CodeLine.ofLine?_of_opensWith hpage]
    cases line.pageName? with
    | none => exact names_of_none (r := { r.close with current := none }) rfl
    | some name => exact names_of_current (r := { r.close with current := some ⟨name, [], none⟩ }) rfl
  · rw [CodeLine.pageName?_of_opensWith hpage, Option.elim_none, step, if_neg hpage]
    split
    next => rw [names, close_close, names]
    next =>
      cases hp : r.current with
      | none => rw [Option.map_none, names_of_none rfl, names_of_none hp]
      | some p =>
        rw [Option.map_some, names_of_current (p := p.push line) rfl, OpenPage.name_push,
          ← names_of_current hp]

/-- A step loses no page. -/
theorem names_subset_step (r : Reader) (line : CodeLine) : r.names ⊆ (r.step line).names := by
  intro name hname
  rw [names_step]
  cases line.pageName? with
  | none => exact hname
  | some new => exact mem_insertNew.2 (Or.inl hname)

theorem names_subset_foldl : ∀ (lines : List CodeLine) (r : Reader),
    r.names ⊆ (lines.foldl step r).names
  | [], _ => fun _ h => h
  | line :: lines, r => fun _ h =>
      names_subset_foldl lines (r.step line) (names_subset_step r line h)

/-- **A page that is opened is a page of the script.** -/
theorem name_mem_run {lines : List CodeLine} {line : CodeLine} {p : OpenPage}
    (hline : line ∈ lines) (hopens : line.opensWith .page = true)
    (hp : OpenPage.ofLine? line = some p) : p.name ∈ (run lines).map Page.name := by
  obtain ⟨before, after, rfl⟩ := List.append_of_mem hline
  have hstep : p.name ∈ ((before.foldl step empty).step line).names := by
    rw [step, if_pos hopens, hp]
    rw [names_of_current (p := p) rfl]
    exact mem_insertNew.2 (Or.inr rfl)
  rw [run, List.foldl_append, List.foldl_cons]
  exact names_subset_foldl after _ hstep

end Reader

theorem Script.read_eq_ok {text : String} {script : Script} (h : Script.read text = .ok script) :
    script.pages = Reader.run (codeLines text.toList) := by
  unfold Script.read at h
  simp only at h
  split at h
  next => exact absurd h (by simp)
  next =>
    rw [← Except.ok.inj h]

/-! ## Jumps and options -/

theorem CodeLine.transition?_of_command {line : CodeLine} {t : Transition}
    (h : t ∈ line.command.transitions) :
    line.opensWith .goto = true ∧ line.transition? = some t := by
  unfold CodeLine.command at h
  split at h
  next htokens =>
    split at h
    next t' ht =>
      obtain rfl := List.mem_singleton.1 h
      exact ⟨by rw [CodeLine.opensWith, htokens]; rfl, ht⟩
    next => exact absurd h (by simp [Command.transitions, CodeLine.broken])
  next =>
    split at h
    next => exact absurd h (by simp [Command.transitions, CodeLine.broken])
    next => exact absurd h (by simp [Command.transitions])
  next => exact absurd h (by simp [Command.transitions])
  next => exact absurd h (by simp [Command.transitions])
  next => exact absurd h (by simp [Command.transitions])
  next => exact absurd h (by simp [Command.transitions, CodeLine.broken])

/-- **Each jump and each option is what one line does.** -/
theorem Command.ReadFrom.exists_line {lines : List CodeLine} {c : Command}
    (h : c.ReadFrom lines) {t : Transition} (ht : t ∈ c.transitions) :
    ∃ l ∈ lines, (l.opensWith .goto = true ∨ l.opensWith .is = true) ∧ l.transition? = some t := by
  cases h with
  | line line hline _ =>
    obtain ⟨hopens, htransition⟩ := CodeLine.transition?_of_command ht
    exact ⟨line, hline, Or.inl hopens, htransition⟩
  | menu menu hoptions _ hcommand =>
    rcases mem_commands_of_menu hcommand with rfl | ⟨l, -, rfl, -⟩
    · obtain ⟨o, ho, rfl⟩ := List.mem_map.1 ht
      obtain ⟨l, hl, htransition⟩ := exists_of_mem_readOptions ho
      exact ⟨l, (hoptions l hl).1, Or.inr (hoptions l hl).2, htransition⟩
    · exact absurd ht (by simp [Command.transitions, CodeLine.broken])

/-- A line of the story is what one text line stands for. -/
theorem Command.ReadFrom.exists_textLine {lines : List CodeLine} {kind : MessageKind}
    {conditions : List Condition} {text : String}
    (h : (Command.textLine kind conditions text).ReadFrom lines) :
    ∃ l ∈ lines, ∃ guards, l.tokens.head? = some (.message kind guards text) ∧
      conditions = (readGuards false guards).1 := by
  generalize hc : Command.textLine kind conditions text = c at h
  cases h with
  | line line hline _ =>
    refine ⟨line, hline, ?_⟩
    unfold CodeLine.command at hc
    split at hc
    next => split at hc <;> exact absurd hc (by simp [CodeLine.broken])
    next => split at hc <;> exact absurd hc (by simp [CodeLine.broken])
    next => exact absurd hc (by simp)
    next => exact absurd hc (by simp)
    next kind' guards text' _ htokens =>
      simp only [Command.textLine.injEq] at hc
      obtain ⟨rfl, hconditions, rfl⟩ := hc
      exact ⟨guards, by rw [htokens]; rfl, hconditions⟩
    next => exact absurd hc (by simp [CodeLine.broken])
  | menu menu _ _ hcommand =>
    rcases mem_commands_of_menu hcommand with rfl | ⟨l, -, rfl, -⟩
    · exact absurd hc (by simp)
    · exact absurd hc (by simp [CodeLine.broken])

/-- A line that is broken by itself keeps its number and its source; a TO line has no
destination. -/
theorem CodeLine.command_eq_broken {line : CodeLine} {n : Nat} {source : String}
    (h : line.command = .broken n source) :
    line.broken = .broken n source ∧ (line.opensWith .goto = true → line.transition? = none) := by
  unfold CodeLine.command at h
  split at h
  next =>
    split at h
    next => exact absurd h (by simp)
    next hnone => exact ⟨h, fun _ => hnone⟩
  next htokens =>
    split at h
    next =>
      have hexec : line.opensWith .exec = true := by
        rw [CodeLine.opensWith, htokens]
        rfl
      refine ⟨h, fun hopens => absurd hopens ?_⟩
      rw [CodeLine.opensWith_eq_false hexec (by decide)]
      exact Bool.false_ne_true
    next => exact absurd h (by simp)
  next => exact absurd h (by simp)
  next => exact absurd h (by simp)
  next => exact absurd h (by simp)
  next hgoto _ _ _ _ =>
    refine ⟨h, fun hopens => ?_⟩
    obtain ⟨ts, htokens⟩ := List.head?_eq_some_iff.1 (eq_of_beq hopens)
    exact absurd htokens (hgoto ts)

/-- **A line is broken for a reason**: if it is a TO or IS line, it has no destination. -/
theorem Command.ReadFrom.exists_brokenLine {lines : List CodeLine} {n : Nat} {source : String}
    (h : (Command.broken n source).ReadFrom lines) :
    ∃ l ∈ lines, l.broken = .broken n source ∧
      (l.opensWith .goto = true ∨ l.opensWith .is = true → l.transition? = none) := by
  generalize hc : Command.broken n source = c at h
  cases h with
  | line line hline his =>
    obtain ⟨hbroken, hgoto⟩ := CodeLine.command_eq_broken hc.symm
    exact ⟨line, hline, hbroken.trans hc, fun hopens => hgoto (hopens.resolve_right his)⟩
  | menu menu hoptions _ hcommand =>
    rcases mem_commands_of_menu hcommand with rfl | ⟨l, hl, rfl, hnone⟩
    · exact absurd hc (by simp)
    · exact ⟨l, (hoptions l hl).1, rfl, fun _ => hnone⟩

/-- A command for the engine has a name, which is the token behind EXEC. -/
theorem CodeLine.tokens_of_command {line : CodeLine} {name : String} {args : List String}
    (h : line.command = .exec name args) :
    name ≠ "" ∧ ∃ ts, line.tokens = .keyword .exec :: .exec name :: ts := by
  unfold CodeLine.command at h
  split at h
  next => split at h <;> exact absurd h (by simp [CodeLine.broken])
  next name' ts htokens =>
    split at h
    next => exact absurd h (by simp [CodeLine.broken])
    next hne =>
      obtain ⟨rfl, -⟩ := Command.exec.inj h
      exact ⟨hne, ts, htokens⟩
  next => exact absurd h (by simp)
  next => exact absurd h (by simp)
  next => exact absurd h (by simp)
  next => exact absurd h (by simp [CodeLine.broken])

/-- A command for the engine is what one line stands for. -/
theorem Command.ReadFrom.exists_execLine {lines : List CodeLine} {name : String}
    {args : List String} (h : (Command.exec name args).ReadFrom lines) :
    ∃ l ∈ lines, l.command = .exec name args := by
  generalize hc : Command.exec name args = c at h
  cases h with
  | line line hline _ => exact ⟨line, hline, rfl⟩
  | menu menu _ _ hcommand =>
    rcases mem_commands_of_menu hcommand with rfl | ⟨l, -, rfl, -⟩
    · exact absurd hc (by simp)
    · exact absurd hc (by simp [CodeLine.broken])

end Gamebook
