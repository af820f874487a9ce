import Gamebook.Proofs.Place.Report
import Gamebook.Proofs.Script.Partition

/-!
Gamebook.Proofs.Script.Broken — the broken lines of a script.

A broken option is kept back until its menu is closed, and a later page takes the place of an earlier
one of its name. So it is not obvious that the broken lines come in the order of the text, and none
of them twice.

* Inside a block, what is kept back overtakes nothing: the broken lines of a block are the lines of
  the block that mean nothing (`CodeLine.meansNothing`), in their order
  (`Block.filterMap_brokenLine?`). So those of a page are a part of its section
  (`Reader.brokenLines_of_mem_run`).
* The section of a line is told by the lines in front of it alone (`Reader.openPageName?_front`). So
  two pages share no line.

`brokenLines_source` puts these together.
-/

namespace Gamebook

open Text

/-! ## Lines that mean nothing -/

/-- The reader cannot say what the line stands for. An IS line means nothing if it leads nowhere; a
CHOICE line always means a menu. -/
def CodeLine.meansNothing (line : CodeLine) : Bool :=
  if line.opensWith .is then line.transition?.isNone
  else if line.opensWith .choice then false
  else line.command == line.broken

/-- What is reported about the line on a page. -/
def CodeLine.brokenLine (page : String) (line : CodeLine) : BrokenLine :=
  ⟨page, line.number, String.ofList line.source⟩

/-- The line of a page that a command is, if it is a broken one. -/
def Command.brokenLine? (page : String) : Command → Option BrokenLine
  | .broken line source => some ⟨page, line, source⟩
  | _ => none

theorem Page.brokenLines_eq (page : Page) :
    page.brokenLines = page.commands.filterMap (Command.brokenLine? page.name) := rfl

/-- A line that is neither part of a menu nor opens one is broken if it means nothing. -/
theorem CodeLine.brokenLine?_command (page : String) {line : CodeLine}
    (hchoice : line.opensWith .choice = false) (his : line.opensWith .is = false) :
    line.command.brokenLine? page =
      if line.meansNothing then some (line.brokenLine page) else none := by
  rw [meansNothing, his, hchoice]
  cases hcommand : line.command with
  | broken n source =>
    obtain ⟨hbroken, -⟩ := CodeLine.command_eq_broken hcommand
    obtain ⟨rfl, rfl⟩ := Command.broken.inj hbroken
    rw [hbroken]
    simp [Command.brokenLine?, CodeLine.brokenLine]
  | _ => simp [Command.brokenLine?, CodeLine.broken]

/-- The broken lines behind a menu are its options that mean nothing. -/
theorem filterMap_brokenOptions (page : String) {lines : List CodeLine}
    (his : ∀ l ∈ lines, l.opensWith .is = true) :
    (brokenOptions lines).filterMap (Command.brokenLine? page) =
      (lines.filter CodeLine.meansNothing).map (CodeLine.brokenLine page) := by
  have hfilter : lines.filter CodeLine.meansNothing =
      lines.filter fun line => line.transition?.isNone := by
    refine List.filter_congr fun l hl => ?_
    rw [CodeLine.meansNothing, if_pos (his l hl)]
  rw [brokenOptions, List.filterMap_map, hfilter]
  show List.filterMap (some ∘ CodeLine.brokenLine page) _ = _
  rw [List.filterMap_eq_map]

/-- **The broken lines of a block are its lines that mean nothing**, in the order of the text. -/
theorem Block.filterMap_brokenLine? (page : String) {b : Block} (hb : b.WellFormed) :
    b.commands.filterMap (Command.brokenLine? page) =
      (b.lines.filter CodeLine.meansNothing).map (CodeLine.brokenLine page) := by
  cases b with
  | menu opening options =>
    have hopening : opening.meansNothing = false := by
      rw [CodeLine.meansNothing, CodeLine.opensWith_eq_false hb.1 (by decide), hb.1]
      rfl
    rw [commands, menuCommands, List.filterMap_cons_none rfl, filterMap_brokenOptions page hb.2,
      lines, List.filter_cons_of_neg (by rw [hopening]; exact Bool.false_ne_true)]
  | orphans first options =>
    rw [commands, menuCommands, List.filterMap_cons_none rfl, filterMap_brokenOptions page hb, lines]
  | single line =>
    have hline := CodeLine.brokenLine?_command page hb.1 hb.2
    rw [commands, lines, List.filterMap_cons, List.filter_cons, hline]
    cases line.meansNothing <;> rfl

/-- The same for lines that are cut into blocks. -/
theorem IsCut.filterMap_brokenLine? (page : String) {ls : List CodeLine} {bs : List Block}
    (h : IsCut ls bs) :
    (bs.flatMap Block.commands).filterMap (Command.brokenLine? page) =
      (ls.filter CodeLine.meansNothing).map (CodeLine.brokenLine page) := by
  induction h with
  | nil => rfl
  | cons hb _ _ ih =>
    rw [List.flatMap_cons, List.filterMap_append, Block.filterMap_brokenLine? page hb, ih,
      List.filter_append, List.map_append]

/-! ## Numbers of lines -/

/-- The lines of code of a text have rising numbers. -/
theorem pairwise_number_codeLines (text : List Char) :
    (codeLines text).Pairwise fun a b => a.number < b.number := by
  have hnumbered : (numberedLines text).Pairwise fun a b => a.1 < b.1 := by
    rw [← List.pairwise_map (f := Prod.fst) (R := fun a b : Nat => a < b), numberedLines,
      map_fst_numberFrom]
    exact List.pairwise_lt_range'
  rw [codeLines, List.pairwise_filterMap]
  refine hnumbered.imp fun {p q} hlt a ha b hb => ?_
  obtain ⟨-, rfl⟩ := CodeLine.ofRaw?_eq_some_iff.1 ha
  obtain ⟨-, rfl⟩ := CodeLine.ofRaw?_eq_some_iff.1 hb
  exact hlt

/-- What is in front of a line is told by its number. -/
theorem filter_number_lt {front back : List CodeLine} {line : CodeLine}
    (h : (front ++ line :: back).Pairwise fun a b => a.number < b.number) :
    (front ++ line :: back).filter (fun l => l.number < line.number) = front := by
  obtain ⟨-, hback, hfront⟩ := List.pairwise_append.1 h
  have hbehind := (List.pairwise_cons.1 hback).1
  have hnone : (line :: back).filter (fun l => l.number < line.number) = [] := by
    refine List.filter_eq_nil_iff.2 fun l hl => ?_
    rcases List.mem_cons.1 hl with rfl | hl
    · simp
    · have := hbehind l hl
      simp only [decide_eq_true_eq]
      omega
  have hall : front.filter (fun l => l.number < line.number) = front := by
    refine List.filter_eq_self.2 fun l hl => ?_
    exact decide_eq_true (hfront l hl line List.mem_cons_self)
  rw [List.filter_append, hall, hnone, List.append_nil]

/-- Lines that close no page leave the page open that the line in front of them starts. -/
theorem openPageName?_append_cons {before others : List CodeLine} {line : CodeLine} {name : String}
    (hline : line.pageName? = some name) (hothers : ∀ l ∈ others, l.closesPage = false) :
    openPageName? (before ++ line :: others) = some name := by
  have hcloses : line.closesPage = true := by
    rw [CodeLine.closesPage, (CodeLine.opensWith_of_pageName? hline).1, Bool.true_or]
  have hnone : others.filter CodeLine.closesPage = [] :=
    List.filter_eq_nil_iff.2 fun l hl => by rw [hothers l hl]; exact Bool.false_ne_true
  rw [openPageName?, List.filter_append, List.filter_cons_of_pos hcloses, hnone,
    List.getLast?_concat, Option.bind_some, hline]

/-! ## The broken lines of a page -/

namespace Reader

/-- **The broken lines of a page are the lines of its section that mean nothing**, in their order. -/
theorem brokenLines_of_mem_run {lines : List CodeLine} {page : Page} (h : page ∈ run lines) :
    ∃ before line after, lines = before ++ line :: after ∧ line.pageName? = some page.name ∧
      page.brokenLines =
        ((pageBody after).filter CodeLine.meansNothing).map (CodeLine.brokenLine page.name) := by
  obtain ⟨before, line, after, hlines, hline, -, hcommands⟩ := exists_section_of_mem_run h
  refine ⟨before, line, after, hlines, hline, ?_⟩
  rw [Page.brokenLines_eq, hcommands, (isCut_cut (pageBody after)).filterMap_brokenLine?]

/-- A broken line is one of the lines, as it is. -/
theorem exists_of_mem_brokenLines {lines : List CodeLine} {page : Page} (h : page ∈ run lines)
    {b : BrokenLine} (hb : b ∈ page.brokenLines) :
    ∃ l ∈ lines, b = l.brokenLine page.name := by
  obtain ⟨before, line, after, rfl, -, hbroken⟩ := brokenLines_of_mem_run h
  rw [hbroken] at hb
  obtain ⟨l, hl, rfl⟩ := List.mem_map.1 hb
  have hbody := (List.takeWhile_prefix _).subset (List.mem_of_mem_filter hl)
  exact ⟨l, List.mem_append_right _ (List.mem_cons_of_mem _ hbody), rfl⟩

/-- The broken lines of a page have rising numbers. -/
theorem pairwise_brokenLines {lines : List CodeLine}
    (hlines : lines.Pairwise fun a b => a.number < b.number) {page : Page} (h : page ∈ run lines) :
    page.brokenLines.Pairwise fun a b => a.line < b.line := by
  obtain ⟨before, line, after, rfl, -, hbroken⟩ := brokenLines_of_mem_run h
  have hsection : ((pageBody after).filter CodeLine.meansNothing).Sublist
      (before ++ line :: after) :=
    List.filter_sublist.trans ((List.takeWhile_sublist _).trans
      ((List.sublist_cons_self _ _).trans (List.sublist_append_right _ _)))
  rw [hbroken, List.pairwise_map]
  exact hlines.sublist hsection

/-- **A broken line stands where its page is open**: the last PAGE or DEFINE line in front of it
starts the page. -/
theorem openPageName?_front {lines : List CodeLine}
    (hlines : lines.Pairwise fun a b => a.number < b.number) {page : Page} (h : page ∈ run lines)
    {b : BrokenLine} (hb : b ∈ page.brokenLines) :
    openPageName? (lines.filter fun l => l.number < b.line) = some page.name := by
  obtain ⟨before, line, after, rfl, hline, hbroken⟩ := brokenLines_of_mem_run h
  rw [hbroken] at hb
  obtain ⟨l, hl, rfl⟩ := List.mem_map.1 hb
  obtain ⟨others, rest, hbody⟩ := List.append_of_mem (List.mem_of_mem_filter hl)
  have hafter : before ++ line :: after = before ++ line :: others ++
      l :: (rest ++ after.dropWhile fun l => !l.closesPage) := by
    conv_lhs => rw [← List.takeWhile_append_dropWhile (p := fun l => !l.closesPage) (l := after)]
    rw [← pageBody, hbody]
    simp only [List.append_assoc, List.cons_append]
  have hopen : ∀ o ∈ others, o.closesPage = false := fun o ho =>
    closesPage_of_mem_pageBody o (hbody ▸ List.mem_append_left _ ho)
  rw [hafter] at hlines ⊢
  rw [show (l.brokenLine page.name).line = l.number from rfl, filter_number_lt hlines]
  exact openPageName?_append_cons hline hopen

/-- **No line is broken twice.** -/
theorem nodup_flatMap_brokenLines {lines : List CodeLine}
    (hlines : lines.Pairwise fun a b => a.number < b.number) :
    ((run lines).flatMap fun page => page.brokenLines.map BrokenLine.line).Nodup := by
  have hnames : (run lines).Pairwise fun p q => p.name ≠ q.name :=
    List.pairwise_map.1 (nodup_names_foldl lines (r := empty) List.nodup_nil)
  rw [List.nodup_flatMap]
  constructor
  · intro page hpage
    exact (List.pairwise_map.2 (pairwise_brokenLines hlines hpage)).imp Nat.ne_of_lt
  · refine hnames.imp_of_mem fun {p q} hp hq hne n hn hn' => hne ?_
    -- The number tells the page, so two pages of different names share none.
    obtain ⟨b, hb, rfl⟩ := List.mem_map.1 hn
    obtain ⟨b', hb', hline⟩ := List.mem_map.1 hn'
    have hfirst := openPageName?_front hlines hp hb
    have hsecond := openPageName?_front hlines hq hb'
    rw [hline, hfirst] at hsecond
    exact Option.some.inj hsecond

end Reader

/-- **Broken lines point at their source.** Where a script has a broken line, the text has a line of
that number, and what is reported is that line without blanks and without its comment, which is not
empty. On a page the numbers rise, and no number comes twice, neither on a page nor on two pages. -/
theorem brokenLines_source {text : String} {script : Script}
    (hread : Script.read text = .ok script) :
    (∀ b ∈ script.brokenLines, 1 ≤ b.line ∧ b.line ≤ (lines text.toList).length ∧
      ∃ raw, (lines text.toList)[b.line - 1]? = some raw ∧
        b.source.toList = trimEnd (stripComment (trim raw)) ∧ b.source ≠ "") ∧
    (∀ page ∈ script.pages, page.brokenLines.Pairwise fun a b => a.line < b.line) ∧
    (script.brokenLines.map BrokenLine.line).Nodup := by
  have hpages := Script.read_eq_ok hread
  have hnumbers := pairwise_number_codeLines text.toList
  refine ⟨fun b hb => ?_, fun page hpage => ?_, ?_⟩
  · obtain ⟨page, hpage, hb⟩ := List.mem_flatMap.1 hb
    rw [hpages] at hpage
    obtain ⟨l, hl, rfl⟩ := Reader.exists_of_mem_brokenLines hpage hb
    obtain ⟨n, raw, hmem, hraw⟩ := mem_codeLines.1 hl
    obtain ⟨hne, rfl⟩ := CodeLine.ofRaw?_eq_some_iff.1 hraw
    obtain ⟨hn, hget⟩ := getElem?_of_mem_numberedLines hmem
    obtain ⟨hbound, -⟩ := List.getElem?_eq_some_iff.1 hget
    refine ⟨hn, ?_, raw, hget, String.toList_ofList, fun hsource => hne ?_⟩
    · show n ≤ _
      omega
    · exact String.ofList_injective hsource
  · rw [hpages] at hpage
    exact Reader.pairwise_brokenLines hnumbers hpage
  · rw [Script.brokenLines, List.map_flatMap, hpages]
    exact Reader.nodup_flatMap_brokenLines hnumbers

/-- A page whose second section replaces the first one, with an option that leads nowhere and a line
of words, the first one with a comment and the second one indented. -/
def ghostText : String :=
  "DEFINE \"g\"\nPAGE @a\nwhat\nPAGE @b\nEXEC\nPAGE @a\nIS \"x\" // lost\n\nIS \"y\" @b\n  so what\n"

/-- The script: the broken line of the first section is gone. -/
def ghostScript : Script :=
  ⟨"g", ["a", "b"], [],
    [⟨"a", [.choice none [⟨some "y", false, false, ⟨.page "b", [], []⟩⟩], .broken 7 "IS \"x\"",
      .broken 10 "so what"]⟩, ⟨"b", [.broken 5 "EXEC"]⟩]⟩

theorem read_ghostText : Script.read ghostText = .ok ghostScript := by decide +kernel

/-- The page `a` comes first and its broken lines stand behind that of `b`; none comes twice. -/
theorem brokenLines_source_ghostText :
    Script.read ghostText = .ok ghostScript ∧
    ghostScript.brokenLines.map BrokenLine.line = [7, 10, 5] ∧
    (∃ raw, (lines ghostText.toList)[6]? = some raw ∧
      "IS \"x\"".toList = trimEnd (stripComment (trim raw))) ∧
    (ghostScript.brokenLines.map BrokenLine.line).Nodup := by
  obtain ⟨hsource, -, hnodup⟩ := brokenLines_source read_ghostText
  have hmem : ⟨"a", 7, "IS \"x\""⟩ ∈ ghostScript.brokenLines := by decide
  obtain ⟨-, -, raw, hraw, htrim, -⟩ := hsource _ hmem
  exact ⟨read_ghostText, rfl, ⟨raw, hraw, htrim⟩, hnodup⟩

end Gamebook
