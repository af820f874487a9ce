import Gamebook.Proofs.Check.Accepted
import Gamebook.Proofs.Check.Argument
import Gamebook.Proofs.Script.Reader
import Gamebook.Proofs.Soundness.Destination
import Gamebook.Proofs.Story.Basic

/-!
Gamebook.Proofs.Soundness.Command — which commands of an accepted text the catalog lists.

The reader takes all that stands behind `#` for the name of a command. The checks look for `#` and a
run of the characters that names of commands have, so they look up no more than the beginning of the
name up to its first other character (`lookedUp`), and nothing at all if the name starts with such a
character.

* `Accepted.contains_lookedUp`: what is looked up is listed.
* `commandNames_listed_iff`: so the commands of an accepted script are listed exactly when those are
  whose names are no names of commands. `foo_mem_commandNames` is a script with one that is not.
-/

namespace Gamebook

open Text

/-! ## Commands of a script -/

/-- The name of the command for the engine. -/
def Command.engineName? : Command → Option String
  | exec name _ => some name
  | _ => none

/-- The names of the commands that a script gives to the engine. -/
def Script.commandNames (script : Script) : List String :=
  script.pages.flatMap fun page => page.commands.filterMap Command.engineName?

/-- The part of a command's name that the checks look up. -/
def lookedUp (name : String) : String := String.ofList (name.toList.takeWhile isCommandChar)

/-- Of the name of a command, all is looked up. -/
theorem lookedUp_of_isCommandName {name : String} (h : IsCommandName name) :
    lookedUp name = name := by
  rw [lookedUp, List.takeWhile_eq_self_iff.2 h.2, String.ofList_toList]

/-- **The call of a line, as the checks see it**: the first argument of EXEC is `#` and the name, and
those behind it are the arguments of the command. -/
theorem Line.arguments_of_command {n : Nat} {raw : List Char} {line : CodeLine}
    (hraw : CodeLine.ofRaw? n raw = some line) {name : String} {args : List String}
    (h : line.command = .exec name args) :
    (ofRaw n raw).keyword? = some .exec ∧
      ∃ first values, (ofRaw n raw).arguments .exec = first :: values ∧
        first.text = '#' :: name.toList ∧ args = values.map fun v => String.ofList v.text := by
  obtain ⟨-, ts, htokens⟩ := CodeLine.tokens_of_command h
  have hopens : line.opensWith .exec = true := by
    rw [CodeLine.opensWith, htokens]
    rfl
  rcases keyword?_of_opensWith hraw hopens with hk | ⟨-, hsingle⟩
  · refine ⟨hk, ?_⟩
    obtain ⟨source, hsource, hwords⟩ := CodeLine.ofRaw?_of_keyword? hk
    obtain rfl := Option.some.inj (hraw.symm.trans hsource)
    have hargs := CodeLine.arguments_of_command h
    rw [hwords] at hargs
    cases harguments : (ofRaw n raw).arguments .exec with
    | nil => simp [harguments] at htokens
    | cons first values =>
      rw [harguments, List.map_cons] at htokens hargs
      rw [List.drop_succ_cons, List.drop_succ_cons, List.drop_zero, List.map_map] at hargs
      have hfirst := (List.cons.inj (List.cons.inj htokens).2).1
      exact ⟨first, values, rfl, Token.ofWord_eq_exec_iff.1 hfirst, hargs⟩
  · rw [hsingle] at htokens
    exact absurd htokens (by simp)

/-- **Each command of a script is what a line of the text stands for.** -/
theorem exists_line_of_mem_commands {text : String} {script : Script}
    (hread : Script.read text = .ok script) {page : Page} (hpage : page ∈ script.pages)
    {name : String} {args : List String} (h : Command.exec name args ∈ page.commands) :
    ∃ line ∈ codeLines text.toList, line.command = .exec name args := by
  rw [Script.read_eq_ok hread] at hpage
  exact (Reader.readFrom_run _ page hpage _ h).exists_execLine

/-- **Each command of a script stands behind EXEC on a line of the text**, and the checks see it as
the first argument of that line. -/
theorem exists_argument_of_mem_commandNames {text : String} {script : Script}
    (hread : Script.read text = .ok script) {name : String} (hname : name ∈ script.commandNames) :
    ∃ n raw, (n, raw) ∈ numberedLines text.toList ∧ (Line.ofRaw n raw).keyword? = some .exec ∧
      ∃ a ∈ (Line.ofRaw n raw).arguments .exec, a.text = '#' :: name.toList := by
  obtain ⟨page, hpage, hcommands⟩ := List.mem_flatMap.1 hname
  obtain ⟨command, hcommand, hengine⟩ := List.mem_filterMap.1 hcommands
  obtain ⟨args, rfl⟩ : ∃ args, command = .exec name args := by
    unfold Command.engineName? at hengine
    split at hengine
    next args => exact ⟨args, by rw [Option.some.inj hengine]⟩
    next => exact absurd hengine (by simp)
  obtain ⟨line, hline, hexec⟩ := exists_line_of_mem_commands hread hpage hcommand
  obtain ⟨n, raw, hmem, hraw⟩ := mem_codeLines.1 hline
  obtain ⟨hk, first, values, hargs, hfirst, -⟩ := Line.arguments_of_command hraw hexec
  refine ⟨n, raw, hmem, hk, first, ?_, hfirst⟩
  rw [hargs]
  exact List.mem_cons_self

/-! ## What the checks look up -/

/-- **What is looked up of a command is listed**, if the text is accepted. -/
theorem Accepted.contains_lookedUp {catalog : Catalog} {text : String} {n : Nat} {raw : List Char}
    (h : Accepted catalog text) (hcatalog : catalog.isEmpty = false)
    (hmem : (n, raw) ∈ numberedLines text.toList)
    (hk : (Line.ofRaw n raw).keyword? = some .exec) {a : Segment}
    (ha : a ∈ (Line.ofRaw n raw).arguments .exec) {name : String}
    (htext : a.text = '#' :: name.toList) (hne : lookedUp name ≠ "") :
    catalog.contains (lookedUp name) = true := by
  have hsplit : a.text = [] ++ '#' :: name.toList.takeWhile isCommandChar ++
      name.toList.dropWhile isCommandChar := by
    rw [htext, List.nil_append, List.cons_append, List.takeWhile_append_dropWhile]
  have hquote : '"' ∉ '#' :: name.toList.takeWhile isCommandChar := by
    rw [List.mem_cons, not_or]
    exact ⟨by decide, Pattern.notMem_takeWhile (by decide) _⟩
  obtain ⟨-, p', -, r', -, hcode, -, hbehind⟩ :=
    Line.exists_append_of_unquoted hk ha hsplit rfl hquote
  have hstop : ∀ c ∈ r'.head?, isCommandChar c = false := by
    intro c hc
    rcases hbehind c hc with hc | hc
    · have hdrop := List.head?_dropWhile_not isCommandChar name.toList
      rw [Option.mem_def.1 hc] at hdrop
      exact hdrop
    · by_contra hcommand
      have hword := isWordChar_of_isCommandChar ((Bool.not_eq_false _).mp hcommand)
      rw [isWordChar_of_isBlank hc] at hword
      exact absurd hword (by decide)
  have hrun : name.toList.takeWhile isCommandChar ≠ [] := by
    intro hnil
    exact hne (by rw [lookedUp, hnil])
  by_contra hcontains
  have hhit : ⟨byteLength p', ['#'], name.toList.takeWhile isCommandChar⟩ ∈
      (Line.ofRaw n raw).hits .execRef := by
    rw [Line.hits, hcode, List.append_assoc, List.cons_append]
    exact Pattern.mem_scan_execRef p' hrun (fun c hc => List.mem_takeWhile_imp hc) hstop
  have hmark : (Line.ofRaw n raw).markHit
      ⟨byteLength p', ['#'], name.toList.takeWhile isCommandChar⟩
      (.unknownCommand (lookedUp name)) ∈
        referenceMarks (Declared.ofLines catalog (Line.ofText text.toList)) (Line.ofRaw n raw) := by
    refine List.mem_append_right _ ?_
    rw [if_neg (by simpa [Declared.ofLines] using hcatalog)]
    exact List.mem_filterMap.2 ⟨_, hhit, if_neg hcontains⟩
  exact absurd rfl (h.severity_ne_of_mem_referenceMarks hmem (Line.isCode_of_keyword? hk) hmark)

/-- **With a catalog, the commands of an accepted script are listed as far as they are looked up.**
So they are all listed exactly when those are whose names are no names of commands. -/
theorem commandNames_listed_iff {catalog : Catalog} {text : String} {script : Script}
    (haccepted : Accepted catalog text) (hcatalog : catalog.isEmpty = false)
    (hread : Script.read text = .ok script) :
    (∀ name ∈ script.commandNames, lookedUp name ≠ "" →
        catalog.contains (lookedUp name) = true) ∧
      ((∀ name ∈ script.commandNames, catalog.contains name = true) ↔
        ∀ name ∈ script.commandNames, ¬ IsCommandName name → catalog.contains name = true) := by
  have hlooked : ∀ name ∈ script.commandNames, lookedUp name ≠ "" →
      catalog.contains (lookedUp name) = true := by
    intro name hname hne
    obtain ⟨n, raw, hmem, hk, a, ha, htext⟩ := exists_argument_of_mem_commandNames hread hname
    exact haccepted.contains_lookedUp hcatalog hmem hk ha htext hne
  refine ⟨hlooked, fun h name hname _ => h name hname, fun h name hname => ?_⟩
  by_cases hcommand : IsCommandName name
  · have hlisted := hlooked name hname
    rw [lookedUp_of_isCommandName hcommand] at hlisted
    exact hlisted hcommand.1
  · exact h name hname hcommand

/-! ## A command that is not looked up -/

/-- A catalog with one command. -/
def shakeCatalog : Catalog := ⟨[⟨"SHAKE", []⟩]⟩

/-- A call of the command. -/
def shakeText : String := "DEFINE \"t\"\nPAGE @a\nEXEC #SHAKE"

/-- The script with the call. -/
def shakeScript : Script := ⟨"t", ["a"], [], [⟨"a", [.exec "SHAKE" []]⟩]⟩

theorem read_shakeText :
    Accepted shakeCatalog shakeText ∧ Script.read shakeText = .ok shakeScript := by
  unfold Accepted
  decide +kernel

/-- The whole name of this command is looked up. -/
theorem commandNames_listed_iff_shakeText : Accepted shakeCatalog shakeText ∧
    Script.read shakeText = .ok shakeScript ∧
      ∀ name ∈ shakeScript.commandNames, shakeCatalog.contains name = true := by
  obtain ⟨haccepted, hread⟩ := read_shakeText
  refine ⟨haccepted, hread, ?_⟩
  refine (commandNames_listed_iff haccepted rfl hread).2.2 ?_
  decide

/-- A call of a command in small letters, which is not in the catalog. -/
def fooText : String := "DEFINE \"t\"\nPAGE @a\nEXEC #foo"

/-- The script with that call. -/
def fooScript : Script := ⟨"t", ["a"], [], [⟨"a", [.exec "foo" []]⟩]⟩

/-- **The text is accepted, and its command is not listed.** -/
theorem foo_mem_commandNames : shakeCatalog.isEmpty = false ∧ Accepted shakeCatalog fooText ∧
    Script.read fooText = .ok fooScript ∧ "foo" ∈ fooScript.commandNames ∧
      shakeCatalog.contains "foo" = false := by
  unfold Accepted
  decide +kernel

end Gamebook
