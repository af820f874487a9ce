import Gamebook.Proofs.Check.Line

/-!
Gamebook.Proofs.Spacing.Reading — reading lines that have other numbers.

The reader keeps the number of a line for one thing only: to say where a line stood that means nothing.
So lines that are numbered differently are read in the same way, and the broken lines of the script
carry the other numbers (`Script.read_renumber`). Each function of the reader has one lemma that says
so for it.
-/

namespace Gamebook

open Text

/-! ## Other numbers -/

variable (f : Nat → Nat)

/-- The line, under another number. -/
def CodeLine.renumber (line : CodeLine) : CodeLine := { line with number := f line.number }

/-- The command, with another number if it is a broken line. -/
def Command.renumber : Command → Command
  | broken line source => broken (f line) source
  | command => command

/-- The menu, with its lines under other numbers. -/
def OpenMenu.renumber (menu : OpenMenu) : OpenMenu :=
  { menu with options := menu.options.map (CodeLine.renumber f) }

/-- The page that is being read, with its lines under other numbers. -/
def OpenPage.renumber (p : OpenPage) : OpenPage :=
  { p with
    commands := p.commands.map (Command.renumber f)
    menu := p.menu.map (OpenMenu.renumber f) }

/-- The page, with its broken lines under other numbers. -/
def Page.renumber (page : Page) : Page :=
  { page with commands := page.commands.map (Command.renumber f) }

/-- The state of the reader, with all lines under other numbers. -/
def Reader.renumber (r : Reader) : Reader :=
  ⟨r.pages.map (Page.renumber f), r.current.map (OpenPage.renumber f)⟩

/-- The script, with its broken lines under other numbers. -/
def Script.renumber (script : Script) : Script :=
  { script with pages := script.pages.map (Page.renumber f) }

/-! ## Lines -/

namespace CodeLine

@[simp] theorem opensWith_renumber (line : CodeLine) (k : Keyword) :
    (line.renumber f).opensWith k = line.opensWith k := rfl

@[simp] theorem time?_renumber (line : CodeLine) : (line.renumber f).time? = line.time? := rfl

@[simp] theorem label?_renumber (line : CodeLine) : (line.renumber f).label? = line.label? := rfl

@[simp] theorem transition?_renumber (line : CodeLine) :
    (line.renumber f).transition? = line.transition? := rfl

@[simp] theorem broken_renumber (line : CodeLine) :
    (line.renumber f).broken = line.broken.renumber f := rfl

@[simp] theorem command_renumber (line : CodeLine) :
    (line.renumber f).command = line.command.renumber f := by
  have htokens : (line.renumber f).tokens = line.tokens := rfl
  have hsource : (line.renumber f).source = line.source := rfl
  unfold command
  rw [htokens, hsource, transition?_renumber, broken_renumber]
  split
  · split <;> rfl
  · split <;> rfl
  · rfl
  · rfl
  · rfl
  · rfl

end CodeLine

/-! ## Menus -/

@[simp] theorem readOptions_renumber (lines : List CodeLine) (previous : Option String) :
    readOptions previous (lines.map (CodeLine.renumber f)) =
      ((readOptions previous lines).1, (readOptions previous lines).2.map (Command.renumber f)) := by
  induction lines generalizing previous with
  | nil => rfl
  | cons line lines ih =>
    rw [List.map_cons, readOptions, readOptions, CodeLine.label?_renumber, ih,
      CodeLine.transition?_renumber]
    cases line.transition? <;> rfl

@[simp] theorem OpenMenu.commands_renumber (menu : OpenMenu) :
    (menu.renumber f).commands = menu.commands.map (Command.renumber f) := by
  simp [commands, renumber, Command.renumber]

/-! ## Pages -/

namespace OpenPage

@[simp] theorem flush_renumber (p : OpenPage) : (p.renumber f).flush = p.flush.renumber f := by
  obtain ⟨name, commands, menu⟩ := p
  cases menu <;> simp [flush, renumber]

@[simp] theorem push_renumber (p : OpenPage) (line : CodeLine) :
    (p.renumber f).push (line.renumber f) = (p.push line).renumber f := by
  simp only [push, CodeLine.opensWith_renumber, flush_renumber]
  split
  · simp [renumber, OpenMenu.renumber]
  · split
    · obtain ⟨name, commands, menu⟩ := p
      cases menu <;> simp [renumber, OpenMenu.renumber]
    · simp [renumber]

@[simp] theorem finish_renumber (p : OpenPage) : (p.renumber f).finish = p.finish.renumber f := by
  rw [finish, flush_renumber]
  rfl

@[simp] theorem ofLine?_renumber (line : CodeLine) :
    ofLine? (line.renumber f) = (ofLine? line).map (OpenPage.renumber f) := by
  unfold ofLine?
  rw [show (line.renumber f).tokens = line.tokens from rfl]
  split <;> rfl

end OpenPage

@[simp] theorem Page.insert_renumber (page : Page) (pages : List Page) :
    (page.renumber f).insert (pages.map (Page.renumber f)) =
      (page.insert pages).map (Page.renumber f) := by
  induction pages with
  | nil => rfl
  | cons p ps ih =>
    have hname : ∀ q : Page, (q.renumber f).name = q.name := fun _ => rfl
    rw [List.map_cons, insert, insert, hname, hname, ih]
    split <;> rfl

/-! ## Scripts -/

namespace Reader

@[simp] theorem close_renumber (r : Reader) : (r.renumber f).close = r.close.renumber f := by
  obtain ⟨pages, current⟩ := r
  cases current <;> simp [close, renumber]

/-- **One step** over a line under another number. -/
theorem step_renumber (r : Reader) (line : CodeLine) :
    (r.renumber f).step (line.renumber f) = (r.step line).renumber f := by
  simp only [step, CodeLine.opensWith_renumber, close_renumber, OpenPage.ofLine?_renumber]
  split
  · rfl
  · split
    · rfl
    · obtain ⟨pages, current⟩ := r
      cases current <;> simp [renumber]

theorem foldl_step_renumber (lines : List CodeLine) (r : Reader) :
    (lines.map (CodeLine.renumber f)).foldl step (r.renumber f) =
      (lines.foldl step r).renumber f := by
  induction lines generalizing r with
  | nil => rfl
  | cons line lines ih => rw [List.map_cons, List.foldl_cons, List.foldl_cons, step_renumber, ih]

/-- **All lines** under other numbers. -/
theorem run_renumber (lines : List CodeLine) :
    run (lines.map (CodeLine.renumber f)) = (run lines).map (Page.renumber f) := by
  rw [run, show empty = empty.renumber f from rfl, foldl_step_renumber, close_renumber]
  rfl

end Reader

theorem mentionedNames_renumber (lines : List CodeLine) :
    mentionedNames (lines.map (CodeLine.renumber f)) = mentionedNames lines := by
  rw [mentionedNames, List.foldl_map]
  rfl

/-- **Lines under other numbers are read as the same script**, with its broken lines under the other
numbers. -/
theorem Script.read_renumber {text text' : String}
    (h : codeLines text'.toList = (codeLines text.toList).map (CodeLine.renumber f)) :
    Script.read text' = (Script.read text).map (Script.renumber f) := by
  have hheader : ∀ lines : List CodeLine,
      (lines.map (CodeLine.renumber f)).find? (fun line => line.opensWith .define) =
        (lines.find? fun line => line.opensWith .define).map (CodeLine.renumber f) := by
    intro lines
    rw [List.find?_map]
    rfl
  simp only [Script.read, h, hheader, mentionedNames_renumber, Reader.run_renumber]
  cases (codeLines text.toList).find? fun line => line.opensWith .define <;> rfl

/-! ## The same numbers -/

/-- Where no number is changed, nothing is. -/
theorem Script.renumber_id (script : Script) : script.renumber id = script := by
  have hcommand : Command.renumber id = id := by
    funext c
    cases c <;> rfl
  have hpage : Page.renumber id = id := by
    funext p
    rw [Page.renumber, hcommand, List.map_id]
    rfl
  rw [Script.renumber, hpage, List.map_id]

end Gamebook
