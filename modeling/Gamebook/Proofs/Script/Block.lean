import Gamebook.Proofs.Script.Reader

/-!
Gamebook.Proofs.Script.Block — the lines of a page, cut into blocks.

The reader takes the lines of a page one by one and keeps the IS lines of the open menu until
something closes it. Seen as a whole, the lines are a sequence of blocks: a CHOICE line with all IS
lines behind it, all IS lines of a stretch that no CHOICE line opens, or one other line (`IsCut`).
There is one such cut (`cut`, `isCut_cut`, `IsCut.eq_cut`).

* `OpenMenu.commands_eq`: a menu is one command for the options that lead somewhere, and behind it
  the lines that lead nowhere.
* `OpenPage.flush_foldl_push_block`: the lines of a block add the commands of the block.
* `OpenPage.foldl_push_cut`: so the lines of a page add the commands of its blocks, one block after
  the other. Nothing is lost, nothing is doubled, and no block changes its place.
-/

namespace Gamebook

/-! ## Menus -/

/-- The texts that the options show, one for each line; `previous` is the text in front of them. -/
def shownTexts (previous : Option String) : List CodeLine → List (Option String)
  | [] => []
  | line :: lines =>
    shownText previous line.label? :: shownTexts (shownText previous line.label?) lines

/-- The option that a line is, if it has a destination; `text` is what the option shows. -/
def CodeLine.option? (line : CodeLine) (text : Option String) : Option ChoiceOption :=
  line.transition?.map fun t =>
    ⟨text, line.label? = some (.special .cancel), line.label? = some (.special .timeup), t⟩

/-- The options of a menu: those of its lines that have a destination. -/
def menuOptions (previous : Option String) (lines : List CodeLine) : List ChoiceOption :=
  (lines.zip (shownTexts previous lines)).filterMap fun (line, text) => line.option? text

/-- The lines that have no destination, as broken ones. -/
def brokenOptions (lines : List CodeLine) : List Command :=
  (lines.filter fun line => line.transition?.isNone).map CodeLine.broken

/-- What a menu is: one command, and its broken lines behind it. -/
def menuCommands (time : Option TimeLimit) (lines : List CodeLine) : List Command :=
  .choice time (menuOptions (some "") lines) :: brokenOptions lines

theorem menuOptions_cons (previous : Option String) (line : CodeLine) (lines : List CodeLine) :
    menuOptions previous (line :: lines) =
      (line.option? (shownText previous line.label?)).toList ++
        menuOptions (shownText previous line.label?) lines := by
  rw [menuOptions, shownTexts, List.zip_cons_cons, List.filterMap_cons]
  simp only
  cases line.option? (shownText previous line.label?) <;> rfl

theorem brokenOptions_cons (line : CodeLine) (lines : List CodeLine) :
    brokenOptions (line :: lines) =
      (if line.transition?.isNone then [line.broken] else []) ++ brokenOptions lines := by
  rw [brokenOptions, List.filter_cons]
  split <;> rfl

theorem readOptions_eq (lines : List CodeLine) (previous : Option String) :
    readOptions previous lines = (menuOptions previous lines, brokenOptions lines) := by
  induction lines generalizing previous with
  | nil => rfl
  | cons line lines ih =>
    rw [readOptions, menuOptions_cons, brokenOptions_cons, CodeLine.option?]
    simp only [ih]
    cases line.transition? <;> rfl

/-- **A menu** is one command for the options that lead somewhere, and behind it the lines that lead
nowhere, both in the order of the text. -/
theorem OpenMenu.commands_eq (menu : OpenMenu) :
    menu.commands = menuCommands menu.time menu.options := by
  simp only [OpenMenu.commands, readOptions_eq, menuCommands]

/-! ## Blocks -/

/-- A block of the lines of a page. -/
inductive Block where
  /-- A CHOICE line and the IS lines behind it. -/
  | menu (opening : CodeLine) (options : List CodeLine)
  /-- IS lines that no CHOICE line opens: the first one and those behind it. -/
  | orphans (first : CodeLine) (options : List CodeLine)
  /-- Any other line. -/
  | single (line : CodeLine)

namespace Block

/-- The lines of the block. -/
def lines : Block → List CodeLine
  | menu opening options => opening :: options
  | orphans first options => first :: options
  | single line => [line]

/-- What the block is. -/
def commands : Block → List Command
  | menu opening options => menuCommands opening.time? options
  | orphans first options => menuCommands none (first :: options)
  | single line => [line.command]

/-- The lines of the block open as they should. -/
def WellFormed : Block → Prop
  | menu opening options =>
    opening.opensWith .choice = true ∧ ∀ l ∈ options, l.opensWith .is = true
  | orphans first options => ∀ l ∈ first :: options, l.opensWith .is = true
  | single line => line.opensWith .choice = false ∧ line.opensWith .is = false

/-- What may stand behind the block. Where IS lines end, no IS line does. -/
def EndsBefore (b : Block) (rest : List CodeLine) : Prop :=
  match b with
  | menu .. | orphans .. => ∀ l ∈ rest.head?, l.opensWith .is = false
  | single _ => True

end Block

/-- The lines are cut into the blocks, and no run of IS lines is cut in two. -/
inductive IsCut : List CodeLine → List Block → Prop
  /-- Nothing is left. -/
  | nil : IsCut [] []
  /-- One block, and the cut of the lines behind it. -/
  | cons {b : Block} {rest : List CodeLine} {bs : List Block} (hb : b.WellFormed)
      (hends : b.EndsBefore rest) (hrest : IsCut rest bs) : IsCut (b.lines ++ rest) (b :: bs)

theorem IsCut.flatMap_lines {ls : List CodeLine} {bs : List Block} (h : IsCut ls bs) :
    bs.flatMap Block.lines = ls := by
  induction h with
  | nil => rfl
  | cons _ _ _ ih => rw [List.flatMap_cons, ih]

/-- Put an IS line in front of blocks: it joins the IS lines that they start with. -/
def joinOrphans (line : CodeLine) : List Block → List Block
  | .orphans first options :: bs => .orphans line (first :: options) :: bs
  | bs => .orphans line [] :: bs

/-- Put a CHOICE line in front of blocks: it opens the IS lines that they start with. -/
def openMenu (line : CodeLine) : List Block → List Block
  | .orphans first options :: bs => .menu line (first :: options) :: bs
  | bs => .menu line [] :: bs

/-- The blocks of the lines. -/
def cut : List CodeLine → List Block
  | [] => []
  | line :: lines =>
    if line.opensWith .is then joinOrphans line (cut lines)
    else if line.opensWith .choice then openMenu line (cut lines)
    else .single line :: cut lines

/-! ## There is one cut -/

/-- Blocks that do not start with IS lines are those of lines that do not either. -/
theorem IsCut.head {ls : List CodeLine} {bs : List Block} (h : IsCut ls bs)
    (hbs : ∀ first options, bs.head? ≠ some (.orphans first options)) :
    ∀ l ∈ ls.head?, l.opensWith .is = false := by
  intro l hl
  cases h with
  | nil => exact absurd hl (by simp)
  | @cons b rest bs hb _ _ =>
    cases b with
    | menu opening options =>
      obtain rfl : opening = l := Option.some.inj hl
      exact CodeLine.opensWith_eq_false hb.1 (by decide)
    | orphans first options => exact absurd rfl (hbs first options)
    | single line =>
      obtain rfl : line = l := Option.some.inj hl
      exact hb.2

theorem isCut_joinOrphans {line : CodeLine} {ls : List CodeLine} {bs : List Block}
    (his : line.opensWith .is = true) (h : IsCut ls bs) :
    IsCut (line :: ls) (joinOrphans line bs) := by
  have hsingle : (∀ first options, bs.head? ≠ some (.orphans first options)) →
      IsCut (line :: ls) (.orphans line [] :: bs) := fun hbs =>
    .cons (b := .orphans line []) (by simpa [Block.WellFormed] using his) (h.head hbs) h
  unfold joinOrphans
  split
  next first options bs =>
    cases h with
    | cons hb hends hrest =>
      refine .cons (b := .orphans line (first :: options)) ?_ hends hrest
      intro l hl
      rcases List.mem_cons.1 hl with rfl | hl
      · exact his
      · exact hb l hl
  next bs hbs =>
    refine hsingle fun first options hhead => ?_
    obtain ⟨bs', rfl⟩ := List.head?_eq_some_iff.1 hhead
    exact hbs first options bs' rfl

theorem isCut_openMenu {line : CodeLine} {ls : List CodeLine} {bs : List Block}
    (hchoice : line.opensWith .choice = true) (h : IsCut ls bs) :
    IsCut (line :: ls) (openMenu line bs) := by
  unfold openMenu
  split
  next first options bs =>
    cases h with
    | cons hb hends hrest =>
      exact .cons (b := .menu line (first :: options)) ⟨hchoice, hb⟩ hends hrest
  next bs hbs =>
    refine .cons (b := .menu line []) ⟨hchoice, by simp⟩ (h.head fun first options hhead => ?_) h
    obtain ⟨bs', rfl⟩ := List.head?_eq_some_iff.1 hhead
    exact hbs first options bs' rfl

/-- **Lines can be cut into blocks.** -/
theorem isCut_cut (ls : List CodeLine) : IsCut ls (cut ls) := by
  induction ls with
  | nil => exact .nil
  | cons line ls ih =>
    rw [cut]
    split
    next his => exact isCut_joinOrphans his ih
    next his =>
      split
      next hchoice => exact isCut_openMenu hchoice ih
      next hchoice =>
        exact .cons (b := .single line) ⟨(Bool.not_eq_true _).mp hchoice,
          (Bool.not_eq_true _).mp his⟩ trivial ih

/-- Lines that do not start with an IS line have no IS lines as their first block. -/
theorem cut_head {ls : List CodeLine} (h : ∀ l ∈ ls.head?, l.opensWith .is = false)
    {bs : List Block} {first : CodeLine} {options : List CodeLine} :
    cut ls ≠ .orphans first options :: bs := by
  intro heq
  have hcut := isCut_cut ls
  rw [heq] at hcut
  cases hcut with
  | cons hb _ _ =>
    have his := hb first List.mem_cons_self
    rw [h first rfl] at his
    exact absurd his (by decide)

theorem joinOrphans_of_head {ls : List CodeLine} (h : ∀ l ∈ ls.head?, l.opensWith .is = false)
    (line : CodeLine) : joinOrphans line (cut ls) = .orphans line [] :: cut ls := by
  unfold joinOrphans
  split
  next heq => exact absurd heq (cut_head h)
  next => rfl

theorem openMenu_of_head {ls : List CodeLine} (h : ∀ l ∈ ls.head?, l.opensWith .is = false)
    (line : CodeLine) : openMenu line (cut ls) = .menu line [] :: cut ls := by
  unfold openMenu
  split
  next heq => exact absurd heq (cut_head h)
  next => rfl

/-- IS lines in front of another line are one block. -/
theorem cut_append_of_is {rest : List CodeLine}
    (hrest : ∀ l ∈ rest.head?, l.opensWith .is = false) :
    ∀ (first : CodeLine) (options : List CodeLine),
      (∀ l ∈ first :: options, l.opensWith .is = true) →
        cut (first :: options ++ rest) = .orphans first options :: cut rest
  | first, [], h => by
      rw [List.cons_append, cut, if_pos (h first List.mem_cons_self)]
      exact joinOrphans_of_head hrest first
  | first, second :: options, h => by
      have ih := cut_append_of_is hrest second options fun l hl => h l (List.mem_cons_of_mem _ hl)
      rw [List.cons_append, cut, if_pos (h first List.mem_cons_self), ih]
      rfl

/-- **There is no other cut.** -/
theorem IsCut.eq_cut {ls : List CodeLine} {bs : List Block} (h : IsCut ls bs) : bs = cut ls := by
  induction h with
  | nil => rfl
  | @cons b rest bs hb hends _ ih =>
    subst ih
    cases b with
    | single line =>
      rw [Block.lines, List.singleton_append, cut, if_neg (by rw [hb.2]; decide),
        if_neg (by rw [hb.1]; decide)]
    | orphans first options => exact (cut_append_of_is hends first options hb).symm
    | menu opening options =>
      have his := CodeLine.opensWith_eq_false hb.1 (k := .is) (by decide)
      rw [Block.lines, List.cons_append, cut, if_neg (by rw [his]; decide), if_pos hb.1]
      cases options with
      | nil => exact (openMenu_of_head hends opening).symm
      | cons first options =>
        rw [cut_append_of_is hends first options hb.2]
        rfl

/-! ## What the reader does with a block -/

namespace OpenPage

theorem flush_of_menu {p : OpenPage} (h : p.menu = none) : p.flush = p := by
  rw [flush, h]

theorem flush_flush (p : OpenPage) : p.flush.flush = p.flush := flush_of_menu p.menu_flush

/-- A line that is no IS line closes the open menu, if there is one. -/
theorem push_flush (p : OpenPage) {line : CodeLine} (h : line.opensWith .is = false) :
    p.flush.push line = p.push line := by
  rw [push, push, h, flush_flush]
  rfl

theorem finish_foldl_push_flush (p : OpenPage) {ls : List CodeLine}
    (h : ∀ l ∈ ls.head?, l.opensWith .is = false) :
    (ls.foldl push p.flush).finish = (ls.foldl push p).finish := by
  cases ls with
  | nil => rw [List.foldl_nil, List.foldl_nil, finish, finish, flush_flush, name_flush]
  | cons l ls => rw [List.foldl_cons, List.foldl_cons, push_flush p (h l rfl)]

/-- **The lines of a block add the commands of the block**, once its menu is closed. -/
theorem flush_foldl_push_block (name : String) (commands : List Command) {b : Block}
    (hb : b.WellFormed) :
    (b.lines.foldl push ⟨name, commands, none⟩).flush = ⟨name, commands ++ b.commands, none⟩ := by
  cases b with
  | single line =>
    have hpush : push ⟨name, commands, none⟩ line = ⟨name, commands ++ [line.command], none⟩ := by
      rw [push, hb.1, hb.2]
      rfl
    rw [Block.lines, List.foldl_cons, List.foldl_nil, hpush, flush_of_menu rfl]
    rfl
  | orphans first options =>
    have hfirst := hb first List.mem_cons_self
    have hchoice := CodeLine.opensWith_eq_false hfirst (k := .choice) (by decide)
    have hpush : push ⟨name, commands, none⟩ first =
        ⟨name, commands, some ⟨none, [first]⟩⟩ := by
      rw [push, hchoice, hfirst]
      rfl
    rw [Block.lines, List.foldl_cons, hpush,
      foldl_push_is _ _ _ _ _ fun l hl => hb l (List.mem_cons_of_mem _ hl)]
    simp only [flush, OpenMenu.commands_eq]
    rfl
  | menu opening options =>
    have hpush : push ⟨name, commands, none⟩ opening =
        ⟨name, commands, some ⟨opening.time?, []⟩⟩ := by
      rw [push, hb.1]
      rfl
    rw [Block.lines, List.foldl_cons, hpush, foldl_push_is _ _ _ _ _ hb.2]
    simp only [flush, OpenMenu.commands_eq]
    rfl

/-- **The lines of a page add the commands of their blocks.** -/
theorem foldl_push_cut {ls : List CodeLine} {bs : List Block} (h : IsCut ls bs) (name : String)
    (commands : List Command) :
    (ls.foldl push ⟨name, commands, none⟩).finish =
      ⟨name, commands ++ bs.flatMap Block.commands⟩ := by
  induction h generalizing commands with
  | nil => rw [List.flatMap_nil, List.append_nil]; rfl
  | @cons b rest bs hb hends _ ih =>
    have hblock := flush_foldl_push_block name commands hb
    have hclose : (rest.foldl push (b.lines.foldl push ⟨name, commands, none⟩)).finish =
        (rest.foldl push (b.lines.foldl push ⟨name, commands, none⟩).flush).finish := by
      cases b with
      | menu opening options => exact (finish_foldl_push_flush _ hends).symm
      | orphans first options => exact (finish_foldl_push_flush _ hends).symm
      | single line =>
        -- Behind a single line no menu is open.
        have hmenu : ((Block.single line).lines.foldl push ⟨name, commands, none⟩).menu = none := by
          show (push ⟨name, commands, none⟩ line).menu = none
          rw [push, hb.1, hb.2]
          rfl
        rw [flush_of_menu hmenu]
    rw [List.foldl_append, hclose, hblock, ih, List.flatMap_cons, List.append_assoc]

end OpenPage

/-- **The commands of a page are those of its blocks.** The lines can be cut into blocks in one way,
and what the reader makes of them is what the blocks are, one after the other. -/
theorem finish_foldl_push_eq_blocks (name : String) (body : List CodeLine) :
    ∃ blocks, IsCut body blocks ∧ (∀ others, IsCut body others → others = blocks) ∧
      blocks.flatMap Block.lines = body ∧
      (body.foldl OpenPage.push ⟨name, [], none⟩).finish =
        ⟨name, blocks.flatMap Block.commands⟩ := by
  refine ⟨cut body, isCut_cut body, fun others h => h.eq_cut, (isCut_cut body).flatMap_lines, ?_⟩
  rw [OpenPage.foldl_push_cut (isCut_cut body), List.nil_append]

end Gamebook
