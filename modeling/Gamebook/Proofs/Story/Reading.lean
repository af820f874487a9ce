import Gamebook.Proofs.Script.Reader
import Gamebook.Proofs.Story.Line

/-!
Gamebook.Proofs.Story.Reading — reading a story back.

Each level of a story is read back by a step of the reader, whatever it has read before.

* `readOptions_lines`: the IS lines of a menu are its options.
* `flush_foldl_push_lines`: the lines of a command add the command to the page that is open.
* `foldl_step_pages`: the lines of pages add the pages.
* `read_text`: the text of a story is the story.
-/

namespace Gamebook

open Text

/-! ## Clauses -/

theorem readGuards_effects : ∀ effects : List Effect,
    readGuards false (effects.map fun e => .clause e.clause) = ([], effects)
  | [] => rfl
  | e :: effects => by
      rw [List.map_cons, readGuards, readGuards_effects effects]
      rfl

/-- Conditions and effects are told apart, and keep their order. -/
theorem readGuards_clauses (effects : List Effect) : ∀ conditions : List Condition,
    readGuards false
        ((conditions.map Condition.clause ++ effects.map Effect.clause).map Guard.clause) =
      (conditions, effects)
  | [] => by
      rw [List.map_nil, List.nil_append, List.map_map]
      exact readGuards_effects effects
  | c :: conditions => by
      rw [List.map_cons, List.cons_append, List.map_cons, readGuards,
        readGuards_clauses effects conditions]
      rfl

section Names

variable {pages flags : List String} (hpages : ∀ name ∈ pages, IsName name)
  (hflags : ∀ name ∈ flags, IsName name)
include hpages hflags

/-! ## Lines -/

/-- **A transition is read back**, behind tokens that say nothing about one. -/
theorem transition?_of_tokens {t : Transition} (h : t.WellFormed pages flags) {line : CodeLine}
    (front : List Token) (hfront : ∀ a ∈ front, a.destination? = none ∧ a.guard? = none)
    (htokens : line.tokens = front ++ t.words.map Token.ofWord) : line.transition? = some t := by
  have hdestination : line.tokens.findSome? Token.destination? = some t.destination := by
    have hnone : front.findSome? Token.destination? = none :=
      List.findSome?_eq_none_iff.2 fun a ha => (hfront a ha).1
    rw [htokens, List.findSome?_append, hnone, Option.none_or, Transition.words, List.map_cons,
      List.findSome?_cons, h.destination.destination? hpages]
  have hguards : line.tokens.filterMap Token.guard? = t.clauses.map Guard.clause := by
    have hnone : front.filterMap Token.guard? = [] :=
      List.filterMap_eq_nil_iff.2 fun a ha => (hfront a ha).2
    have hread : (t.clauses.map Clause.word).filterMap (Token.guard? ∘ Token.ofWord) =
        t.clauses.map Guard.clause := by
      rw [← filterMap_ofWord?_word (h.isName hflags)]
      congr 1
      exact funext Token.guard?_ofWord
    rw [htokens, List.filterMap_append, hnone, List.nil_append, Transition.words, List.map_cons,
      List.filterMap_cons_none t.destination.guard?_word, List.filterMap_map, hread]
  rw [CodeLine.transition?, hdestination, hguards, Option.map_some]
  simp only [Transition.clauses, readGuards_clauses]

/-- **An option is read back.** -/
theorem exists_isLine {o : ChoiceOption} (hlabel : o.HasLabel)
    (h : o.transition.WellFormed pages flags) (n : Nat) :
    ∃ line, CodeLine.ofRaw? n o.line = some line ∧ line.opensWith .is = true ∧
      line.label? = some o.optionLabel ∧ line.transition? = some o.transition := by
  obtain ⟨source, hline, -⟩ :=
    Keyword.is.ofRaw?_line (ChoiceOption.isSolid hpages hflags hlabel h) n
  refine ⟨_, hline, beq_self_eq_true _, ?_, ?_⟩
  · rw [CodeLine.label?, List.map_cons, List.findSome?_cons, List.findSome?_cons, hlabel.label?]
    rfl
  · refine transition?_of_tokens hpages hflags h [.keyword .is, Token.ofWord o.label] ?_ rfl
    intro a ha
    rcases List.mem_cons.1 ha with rfl | ha
    · exact ⟨rfl, rfl⟩
    · rw [List.mem_singleton.1 ha]
      exact Token.ofWord_of_accepts_textOrSpecial hlabel.accepts

omit hpages hflags in
theorem shownText_optionLabel {o : ChoiceOption} (h : o.HasLabel) (previous : Option String) :
    shownText previous (some o.optionLabel) = o.text := by
  cases h <;> rfl

/-- **The IS lines of a menu are its options.** -/
theorem readOptions_lines : ∀ {options : List ChoiceOption},
    (∀ o ∈ options, o.HasLabel ∧ o.transition.WellFormed pages flags) →
      ∀ (n : Nat) (previous : Option String),
        let lines := codeLinesOf (numberFrom n (options.map ChoiceOption.line))
        readOptions previous lines = (options, []) ∧ ∀ l ∈ lines, l.opensWith .is = true
  | [], _, _, _ => ⟨rfl, by simp [codeLinesOf, numberFrom]⟩
  | o :: options, h, n, previous => by
      obtain ⟨hlabel, ht⟩ := h o List.mem_cons_self
      obtain ⟨line, hline, hopens, hread, htransition⟩ :=
        exists_isLine hpages hflags hlabel ht n
      obtain ⟨ih, his⟩ := readOptions_lines (fun p hp => h p (List.mem_cons_of_mem _ hp)) (n + 1)
        o.text
      rw [List.map_cons, codeLinesOf_numberFrom_cons hline]
      refine ⟨?_, ?_⟩
      · rw [readOptions]
        simp only [hread, shownText_optionLabel hlabel, htransition, ih]
        cases hlabel <;> rfl
      · intro l hl
        rcases List.mem_cons.1 hl with rfl | hl
        · exact hopens
        · exact his l hl

/-- **A command without options is read back** from its one line. -/
theorem exists_line_of_command {c : Command} (hc : c.WellFormed pages flags)
    (hchoice : ∀ time options, c ≠ .choice time options) (n : Nat) :
    ∃ raw line, c.lines = [raw] ∧ CodeLine.ofRaw? n raw = some line ∧ line.command = c ∧
      line.opensWith .choice = false ∧ line.opensWith .is = false := by
  cases c with
  | textLine kind conditions text =>
    obtain ⟨source, hline⟩ := ofRaw?_textLine (isName_of_conditions hflags hc.1) hc.2 kind n
    have hguards := readGuards_clauses [] conditions
    rw [List.map_nil, List.append_nil] at hguards
    refine ⟨_, _, rfl, hline, ?_, rfl, rfl⟩
    show Command.textLine kind (readGuards false _).1 text = _
    rw [hguards]
  | choice time options => exact absurd rfl (hchoice time options)
  | goto t =>
    obtain ⟨source, hline, -⟩ :=
      Keyword.goto.ofRaw?_line (Transition.WellFormed.isSolid hpages hflags hc) n
    have ht : CodeLine.transition? ⟨n, source, .keyword .goto :: t.words.map Token.ofWord⟩ =
        some t :=
      transition?_of_tokens hpages hflags hc [.keyword .goto]
        (fun a ha => by rw [List.mem_singleton.1 ha]; exact ⟨rfl, rfl⟩) rfl
    refine ⟨_, _, rfl, hline, ?_, rfl, rfl⟩
    rw [CodeLine.command]
    simp only [ht]
  | exec name args =>
    obtain ⟨source, hline, hwords⟩ :=
      Keyword.exec.ofRaw?_line (isSolid_exec hpages hflags hc.1 hc.2) n
    refine ⟨_, _, rfl, hline, ?_, rfl, rfl⟩
    have hname : Token.ofWord ('#' :: name.toList) = .exec name := by
      show Token.exec (String.ofList name.toList) = _
      rw [String.ofList_toList]
    have hargs : ((segments source).drop 2).map (fun w => String.ofList w.text) = args := by
      have hmap : (segments source).map (fun w => String.ofList w.text) =
          (words source).map String.ofList := by
        rw [words, List.map_map]
        rfl
      rw [List.map_drop, hmap, hwords]
      simp
    rw [CodeLine.command]
    simp only [List.map_cons, hname, if_neg hc.1.1, hargs]
  | pageEnd mode =>
    have hnil : ∀ w ∈ [], IsSolid w := by simp
    obtain ⟨source, hline, -⟩ := mode.keyword.ofRaw?_line hnil n
    refine ⟨_, _, rfl, hline, ?_⟩
    cases mode <;> exact ⟨rfl, rfl, rfl⟩
  | broken m source => exact absurd hc id

/-! ## Pages -/

/-- **The lines of a command add the command to the page.** -/
theorem flush_foldl_push_lines {c : Command} (hc : c.WellFormed pages flags) (n : Nat)
    (p : OpenPage) :
    ((codeLinesOf (numberFrom n c.lines)).foldl OpenPage.push p).flush =
      ⟨p.name, p.flush.commands ++ [c], none⟩ := by
  by_cases hchoice : ∃ time options, c = .choice time options
  · obtain ⟨time, options, rfl⟩ := hchoice
    obtain ⟨source, hline, -⟩ := Keyword.choice.ofRaw?_line (isSolid_time time) n
    obtain ⟨hread, his⟩ := readOptions_lines hpages hflags hc (n + 1) (some "")
    have htime : CodeLine.time? ⟨n, source, .keyword .choice ::
        (time.toList.map TimeLimit.word).map Token.ofWord⟩ = time := by
      cases time with
      | none => rfl
      | some t =>
        show List.findSome? _ [.keyword .choice, Token.ofWord t.word] = some t
        rw [t.ofWord_word]
        rfl
    have hpush : p.push ⟨n, source, .keyword .choice ::
        (time.toList.map TimeLimit.word).map Token.ofWord⟩ =
          ⟨p.flush.name, p.flush.commands, some ⟨time, []⟩⟩ := by
      rw [OpenPage.push, if_pos (by rfl), htime]
    rw [Command.lines, codeLinesOf_numberFrom_cons hline, List.foldl_cons, hpush,
      OpenPage.foldl_push_is _ _ _ _ _ his, List.nil_append, OpenPage.flush]
    simp only [OpenMenu.commands, hread, OpenPage.name_flush]
  · obtain ⟨raw, line, hlines, hline, hcommand, hchoice, his⟩ :=
      exists_line_of_command hpages hflags hc (fun time options h => hchoice ⟨time, options, h⟩) n
    have hpush : p.push line = ⟨p.name, p.flush.commands ++ [c], none⟩ := by
      rw [OpenPage.push, hchoice, his, hcommand, ← p.name_flush, ← p.menu_flush]
      rfl
    rw [hlines, codeLinesOf_numberFrom_cons hline, List.foldl_cons, hpush]
    rfl

/-- The lines of commands add the commands, one after the other. -/
theorem flush_foldl_push_commands : ∀ {cs : List Command}, (∀ c ∈ cs, c.WellFormed pages flags) →
    ∀ (n : Nat) (p : OpenPage),
      ((codeLinesOf (numberFrom n (cs.flatMap Command.lines))).foldl OpenPage.push p).flush =
        ⟨p.name, p.flush.commands ++ cs, none⟩
  | [], _, n, p => by
      rw [List.append_nil, ← p.name_flush, ← p.menu_flush]
      rfl
  | c :: cs, h, n, p => by
      have hc := flush_foldl_push_lines hpages hflags (h c List.mem_cons_self) n p
      have ih := flush_foldl_push_commands (fun d hd => h d (List.mem_cons_of_mem _ hd))
        (n + c.lines.length) ((codeLinesOf (numberFrom n c.lines)).foldl OpenPage.push p)
      rw [List.flatMap_cons, codeLinesOf_numberFrom_append, List.foldl_append, ih, hc,
        ← OpenPage.name_flush, hc]
      simp only [List.append_assoc, List.singleton_append]

/-! ## Scripts -/

/-- No line of a command starts a page or a header. -/
theorem opensWith_eq_false_of_mem {cs : List Command} (h : ∀ c ∈ cs, c.WellFormed pages flags)
    (n : Nat) {line : CodeLine}
    (hline : line ∈ codeLinesOf (numberFrom n (cs.flatMap Command.lines))) :
    line.opensWith .page = false ∧ line.opensWith .define = false := by
  obtain ⟨⟨m, raw⟩, hmem, hraw⟩ := List.mem_filterMap.1 hline
  obtain ⟨c, hc, hcraw⟩ := List.mem_flatMap.1 (mem_of_mem_numberFrom hmem)
  cases (h c hc).isCommandLine hpages hflags raw hcraw with
  | keyword k hk hws =>
    obtain ⟨source, hread, -⟩ := k.ofRaw?_line hws m
    obtain rfl := Option.some.inj (hread.symm.trans hraw)
    have key : ∀ k ∈ [Keyword.exec, .choice, .is, .goto, .ret, .back],
        k ≠ .page ∧ k ≠ .define := by decide
    exact ⟨CodeLine.opensWith_eq_false (beq_self_eq_true _) (key k hk).1,
      CodeLine.opensWith_eq_false (beq_self_eq_true _) (key k hk).2⟩
  | text kind hclauses htext =>
    obtain ⟨source, hread⟩ := ofRaw?_textLine hclauses htext kind m
    obtain rfl := Option.some.inj (hread.symm.trans hraw)
    exact ⟨rfl, rfl⟩

/-- **The lines of a page make up the page.** -/
theorem exists_foldl_step_page {page : Page} (hname : IsName page.name)
    (h : ∀ c ∈ page.commands, c.WellFormed pages flags) (n : Nat) (r : Reader) :
    ∃ p : OpenPage, (codeLinesOf (numberFrom n page.lines)).foldl Reader.step r =
      ⟨r.close.pages, some p⟩ ∧ p.finish = page := by
  obtain ⟨source, hline, -⟩ :=
    Keyword.page.ofRaw?_line (isSolid_of_mem_singleton (isPlain_pageWord hname).isSolid) n
  have hstep : r.step ⟨n, source, .keyword .page :: [pageWord page.name].map Token.ofWord⟩ =
      ⟨r.close.pages, some ⟨page.name, [], none⟩⟩ := by
    rw [List.map_singleton, ofWord_pageWord hname]
    rfl
  refine ⟨(codeLinesOf (numberFrom (n + 1) (page.commands.flatMap Command.lines))).foldl
    OpenPage.push ⟨page.name, [], none⟩, ?_, ?_⟩
  · rw [Page.lines, codeLinesOf_numberFrom_cons hline, List.foldl_cons, hstep]
    exact Reader.foldl_step_of_current _ _ _
      fun l hl => opensWith_eq_false_of_mem hpages hflags h (n + 1) hl
  · have hflush := flush_foldl_push_commands hpages hflags h (n + 1) ⟨page.name, [], none⟩
    rw [OpenPage.finish, ← OpenPage.name_flush, hflush]
    rfl

/-- **The lines of pages make up the pages.** -/
theorem foldl_step_pages : ∀ {ps : List Page}, (∀ p ∈ ps, IsName p.name) →
    (∀ p ∈ ps, ∀ c ∈ p.commands, c.WellFormed pages flags) →
      ∀ (n : Nat) (r : Reader), ((r.close.pages ++ ps).map Page.name).Nodup →
        ((codeLinesOf (numberFrom n (ps.flatMap Page.lines))).foldl Reader.step r).close.pages =
          r.close.pages ++ ps
  | [], _, _, n, r, _ => by
      rw [List.append_nil]
      rfl
  | page :: ps, hname, h, n, r, hnodup => by
      obtain ⟨p, hpage, hfinish⟩ := exists_foldl_step_page hpages hflags
        (hname page List.mem_cons_self) (h page List.mem_cons_self) n r
      have hnew : page.name ∉ r.close.pages.map Page.name := by
        rw [List.map_append, List.nodup_append] at hnodup
        intro hm
        exact hnodup.2.2 _ hm _ (List.mem_map_of_mem List.mem_cons_self) rfl
      have hclose : (Reader.mk r.close.pages (some p)).close.pages = r.close.pages ++ [page] := by
        show p.finish.insert r.close.pages = _
        rw [hfinish, Page.insert_of_notMem hnew]
      have hnodup' : (((Reader.mk r.close.pages (some p)).close.pages ++ ps).map
          Page.name).Nodup := by
        rw [hclose, List.append_assoc]
        exact hnodup
      rw [List.flatMap_cons, codeLinesOf_numberFrom_append, List.foldl_append, hpage,
        foldl_step_pages (fun q hq => hname q (List.mem_cons_of_mem _ hq))
          (fun q hq => h q (List.mem_cons_of_mem _ hq)) _ _ hnodup', hclose, List.append_assoc]
      rfl

end Names

namespace Story

variable (s : Story)

theorem codeLines_text : codeLines s.text.toList = codeLinesOf (numberFrom 1 s.lines) := by
  rw [← s.lines_text]
  rfl

/-- In front of the first page, the line of the flags is passed over. -/
theorem foldl_step_flagLines (n : Nat) :
    (codeLinesOf (numberFrom n (flagLines s.flags))).foldl Reader.step .empty = .empty := by
  unfold flagLines
  split
  next => rfl
  next =>
    obtain ⟨source, hline, -⟩ := Keyword.flag.ofRaw?_line (isSolid_flagWords s.isName_flag) n
    rw [codeLinesOf_numberFrom_cons hline]
    rfl

/-- **A story is read back as it is.** -/
theorem read_text : ∃ script, Script.read s.text = .ok script ∧ script.name = s.name ∧
    script.pages = s.pages := by
  obtain ⟨source, hline, -⟩ := Keyword.define.ofRaw?_line
    (isSolid_of_mem_singleton (isSolid_quotation s.isQuotable_name)) 1
  have hcode : codeLines s.text.toList =
      ⟨1, source, [.keyword .define, .text s.name]⟩ ::
        codeLinesOf (numberFrom 2 (flagLines s.flags ++ s.pages.flatMap Page.lines)) := by
    rw [s.codeLines_text, lines, codeLinesOf_numberFrom_cons hline, List.map_singleton,
      ofWord_quotation]
  have hpages := foldl_step_pages s.isName_of_mem_pages s.isName_flag s.isName_page s.wellFormed
    (2 + (flagLines s.flags).length) .empty s.nodup_pages
  have hrun : Reader.run (codeLines s.text.toList) = s.pages := by
    rw [Reader.run, hcode, List.foldl_cons, codeLinesOf_numberFrom_append, List.foldl_append]
    show (List.foldl Reader.step (List.foldl Reader.step .empty _) _).close.pages = _
    rw [s.foldl_step_flagLines 2, hpages]
    rfl
  have hheader : (codeLines s.text.toList).find? (fun line => line.opensWith .define) =
      some ⟨1, source, [.keyword .define, .text s.name]⟩ := by
    rw [hcode]
    exact List.find?_cons_of_pos rfl
  rw [Script.read]
  simp only [hheader, hrun]
  exact ⟨_, rfl, rfl, rfl⟩

end Story

end Gamebook
