import Gamebook.Proofs.Soundness.Command
import Mathlib.Data.Nat.Basic

/-!
Gamebook.Proofs.Soundness.Call — calls without warnings are calls that the catalog allows.

The reader keeps what follows the name of a command as it is written, whatever the catalog says. The
checks walk down the parameters of the catalog entry, not the arguments: what is behind the last
parameter is only counted, and what is missing only matters where it is required.

* `noWarning_valueMarks_iff`, `noWarning_parameterMarks_iff` and `noWarning_entryMarks_iff`: the walk
  gives no warning exactly if the entry allows the arguments (`CatalogEntry.Allows`). The presets of
  a parameter do not matter, since they only give hints.
* `Script.allows_of_no_warning`: so a command of a script whose line has no warning is one that the
  first entry of its name allows. The text need not be accepted otherwise.
-/

namespace Gamebook

open Text

/-! ## What an entry allows -/

/-- An argument starts as a parameter asks. -/
structure Parameter.Suits (parameter : Parameter) (value : String) : Prop where
  /-- It starts as a page, a flag or a text. -/
  shape : value.toList.head? = some '@' ∨ value.toList.head? = some '$' ∨
    value.toList.head? = some '"'
  /-- It starts as the parameter asks. -/
  form : ∀ form, parameter.kind.form? = some form → value.toList.head? = some form.sigil

/-- The command can be called with the arguments. -/
structure CatalogEntry.Allows (entry : CatalogEntry) (args : List String) : Prop where
  /-- There are not too many. -/
  count : args.length ≤ entry.parameters.length
  /-- What is required is there. -/
  required : ∀ (i : Nat) (p : Parameter), entry.parameters[i]? = some p → p.required = true →
    i < args.length
  /-- Each one has a parameter in its place, and suits it. -/
  suits : ∀ (i : Nat) (a : String), args[i]? = some a →
    ∃ p, entry.parameters[i]? = some p ∧ p.Suits a

/-! ## What the checks warn about -/

/-- No warning is among the marks. -/
def NoWarning (marks : List Mark) : Prop := ∀ m ∈ marks, m.cause.severity ≠ .warning

@[simp] theorem noWarning_nil : NoWarning [] := fun _ h => absurd h List.not_mem_nil

@[simp] theorem noWarning_append {a b : List Mark} :
    NoWarning (a ++ b) ↔ NoWarning a ∧ NoWarning b := List.forall_mem_append

@[simp] theorem noWarning_singleton {m : Mark} :
    NoWarning [m] ↔ m.cause.severity ≠ .warning := List.forall_mem_singleton

/-- A warning that is given under a condition is not given exactly if the condition does not hold. -/
theorem noWarning_ite_iff {c : Prop} [Decidable c] {m : Mark} (hm : m.cause.severity = .warning) :
    NoWarning (if c then [m] else []) ↔ ¬ c := by
  split
  next hc => exact ⟨fun h => absurd hm (noWarning_singleton.1 h), fun h => absurd hc h⟩
  next hc => exact ⟨fun _ => hc, fun _ => noWarning_nil⟩

section

variable {line : Line} {command : String} {name : Span}

theorem fits_iff {form : ValueForm} {value : List Char} :
    form.fits value = true ↔ value.head? = some form.sigil := beq_iff_eq

/-- **An argument gives no warning exactly if it suits the parameter.** -/
theorem noWarning_valueMarks_iff {parameter : Parameter} {value : Segment} :
    NoWarning (valueMarks line command parameter value) ↔
      parameter.Suits (String.ofList value.text) := by
  have hany : (ValueForm.all.any fun form => form.fits value.text) = true ↔
      value.text.head? = some '@' ∨ value.text.head? = some '$' ∨ value.text.head? = some '"' := by
    simp [ValueForm.all, fits_iff, ValueForm.sigil]
  have hshape : NoWarning (if ValueForm.all.any fun form => form.fits value.text then []
      else [line.markSegment value .commandArgumentShape]) ↔
        value.text.head? = some '@' ∨ value.text.head? = some '$' ∨
          value.text.head? = some '"' := by
    rw [← ite_not, noWarning_ite_iff rfl, not_not, hany]
  have hform : NoWarning ((parameterCause? command parameter value.text).map
      (line.markSegment value)).toList ↔
        ∀ form, parameter.kind.form? = some form → value.text.head? = some form.sigil := by
    unfold parameterCause?
    cases hkind : parameter.kind.form? with
    | none => simp
    | some form =>
      simp only [Option.some.injEq, forall_eq', ← fits_iff]
      by_cases hfits : form.fits value.text = true
      · -- Whether the text is among the presets makes a hint at most.
        rw [hfits]
        simp only [Bool.not_true, Bool.false_eq_true, if_false, iff_true]
        split
        · exact noWarning_singleton.2 (by simp [Line.markSegment, Cause.severity])
        · exact noWarning_nil
      · rw [(Bool.not_eq_true _).mp hfits]
        simp only [Bool.not_false, if_true, Bool.false_eq_true, iff_false]
        exact fun h => absurd rfl (noWarning_singleton.1 h)
  rw [valueMarks, noWarning_append, hshape, hform]
  constructor
  · rintro ⟨h, h'⟩
    exact ⟨by rwa [String.toList_ofList], by rwa [String.toList_ofList]⟩
  · rintro ⟨h, h'⟩
    rw [String.toList_ofList] at h h'
    exact ⟨h, h'⟩

/-- **The walk down the parameters** gives no warning exactly if all that is required is there, and
each argument suits the parameter in its place. -/
theorem noWarning_parameterMarks_iff : ∀ {parameters : List Parameter} {values : List Segment},
    NoWarning (parameterMarks line command name parameters values) ↔
      (∀ (i : Nat) (p : Parameter), parameters[i]? = some p → p.required = true →
        i < values.length) ∧
      ∀ (i : Nat) (p : Parameter) (v : Segment), parameters[i]? = some p → values[i]? = some v →
        p.Suits (String.ofList v.text)
  | [], _ => by simp [parameterMarks]
  | parameter :: parameters, value :: values => by
      rw [parameterMarks, noWarning_append, noWarning_valueMarks_iff, noWarning_parameterMarks_iff]
      conv_rhs =>
        congr
        · rw [← Nat.and_forall_add_one]
        · rw [← Nat.and_forall_add_one]
      have hhere : (∀ (p : Parameter) (v : Segment), parameter = p → value = v →
          p.Suits (String.ofList v.text)) ↔ parameter.Suits (String.ofList value.text) :=
        ⟨fun h => h _ _ rfl rfl, by rintro h _ _ rfl rfl; exact h⟩
      simp only [List.getElem?_cons_zero, List.getElem?_cons_succ, List.length_cons,
        Nat.zero_lt_succ, Nat.add_lt_add_iff_right, Option.some.injEq, implies_true, true_and, hhere]
      exact and_left_comm
  | parameter :: parameters, [] => by
      rw [parameterMarks, noWarning_append, noWarning_parameterMarks_iff]
      conv_rhs =>
        congr
        · rw [← Nat.and_forall_add_one]
        · rw [← Nat.and_forall_add_one]
      rw [noWarning_ite_iff rfl]
      simp

/-- **A call gives no warning exactly if the entry allows its arguments.** -/
theorem noWarning_entryMarks_iff {entry : CatalogEntry} {values : List Segment} :
    NoWarning (entryMarks line entry command name values) ↔
      entry.Allows (values.map fun v => String.ofList v.text) := by
  rw [entryMarks, noWarning_append, noWarning_ite_iff rfl, Nat.not_lt, noWarning_parameterMarks_iff]
  constructor
  · rintro ⟨hcount, hrequired, hsuits⟩
    refine ⟨by rwa [List.length_map], fun i p hp hr => ?_, fun i a ha => ?_⟩
    · rw [List.length_map]
      exact hrequired i p hp hr
    · rw [List.getElem?_map] at ha
      obtain ⟨v, hv, rfl⟩ := Option.map_eq_some_iff.1 ha
      -- There are not more arguments than parameters, so this one has a parameter.
      obtain ⟨hi, -⟩ := List.getElem?_eq_some_iff.1 hv
      have hp := List.getElem?_eq_getElem (Nat.lt_of_lt_of_le hi hcount)
      exact ⟨_, hp, hsuits i _ v hp hv⟩
  · rintro ⟨hcount, hrequired, hsuits⟩
    rw [List.length_map] at hcount hrequired
    refine ⟨hcount, hrequired, fun i p v hp hv => ?_⟩
    obtain ⟨p', hp', hsuit⟩ := hsuits i (String.ofList v.text) (by rw [List.getElem?_map, hv]; rfl)
    obtain rfl := Option.some.inj (hp.symm.trans hp')
    exact hsuit

end

/-! ## Calls of a script -/

/-- The marks on the arguments of a call are those of the catalog entry. -/
theorem argumentMarks_of_call {catalog : Catalog} {entry : CatalogEntry} {line : Line}
    {name : String} (hname : IsCommandName name) (hentry : catalog.get? name = some entry)
    {first : Segment} {values : List Segment} (hargs : line.arguments .exec = first :: values)
    (hfirst : first.text = '#' :: name.toList) :
    argumentMarks catalog line .exec = entryMarks line entry name
      ⟨first.start, first.start + 1 + byteLength name.toList⟩ values := by
  have hrun : name.toList.takeWhile isCommandChar = name.toList :=
    List.takeWhile_eq_self_iff.2 hname.2
  have hcommand : commandName? first.text = some name.toList := by
    rw [hfirst, commandName?, hrun, if_neg]
    rw [String.toList_eq_nil_iff]
    exact hname.1
  show commandMarks catalog line (line.arguments .exec) = _
  rw [hargs, commandMarks]
  simp only [hcommand, String.ofList_toList, hentry]

/-- A line without warnings calls its command as the catalog allows. -/
theorem CatalogEntry.allows_of_quiet {catalog : Catalog} {entry : CatalogEntry} {text : String}
    {line : CodeLine} (hline : line ∈ codeLines text.toList) {name : String} {args : List String}
    (hcommand : line.command = .exec name args) (hname : ∀ c ∈ name.toList, isCommandChar c = true)
    (hentry : catalog.get? name = some entry)
    (hquiet : ∀ d ∈ diagnostics catalog text, d.line = line.number → d.severity ≠ .warning) :
    entry.Allows args := by
  obtain ⟨n, raw, hmem, hraw⟩ := mem_codeLines.1 hline
  obtain ⟨hk, first, values, hargs, hfirst, rfl⟩ := Line.arguments_of_command hraw hcommand
  have hne := (CodeLine.tokens_of_command hcommand).1
  rw [← noWarning_entryMarks_iff,
    ← argumentMarks_of_call ⟨hne, hname⟩ hentry hargs hfirst]
  intro m hm
  obtain ⟨d, hd, hnumber, hseverity, -⟩ :=
    exists_diagnostic_of_mem_allMarks (mem_allMarks_of_mem_argumentMarks hmem hk hm)
  rw [← hseverity]
  refine hquiet d hd ?_
  obtain ⟨-, rfl⟩ := CodeLine.ofRaw?_eq_some_iff.1 hraw
  rw [hnumber, (isLocal_of_mem_argumentMarks hm).line_eq]
  rfl

/-- **Calls without warnings are calls that the catalog allows.** A command of a script is what a line
of the text stands for. Whichever line that is: if its name is one that a command can have, and the
report has no warning on the line, then the first entry of that name allows the arguments. -/
theorem Script.allows_of_no_warning {text : String} {script : Script}
    (hread : Script.read text = .ok script) {page : Page} (hpage : page ∈ script.pages)
    {name : String} {args : List String} (hexec : Command.exec name args ∈ page.commands)
    (hname : ∀ c ∈ name.toList, isCommandChar c = true) {catalog : Catalog} {entry : CatalogEntry}
    (hentry : catalog.get? name = some entry) :
    (∃ line ∈ codeLines text.toList, line.command = .exec name args) ∧
    ∀ line ∈ codeLines text.toList, line.command = .exec name args →
      (∀ d ∈ diagnostics catalog text, d.line = line.number → d.severity ≠ .warning) →
        entry.Allows args := by
  exact ⟨exists_line_of_mem_commands hread hpage hexec, fun line hline hcommand hquiet =>
    CatalogEntry.allows_of_quiet hline hcommand hname hentry hquiet⟩

/-- A command that takes a page, perhaps a text and, whatever it may be, a sound. -/
def chimeEntry : CatalogEntry :=
  ⟨"CHIME", [⟨"room", .page, true, []⟩, ⟨"tone", .text, false, ["low"]⟩,
    ⟨"sound", .other, false, []⟩]⟩

/-- A catalog that lists another command of the same name behind it. -/
def chimeCatalog : Catalog := ⟨[chimeEntry, ⟨"CHIME", []⟩]⟩

/-- The command called twice: as it should be, but for a hint, and without its page. -/
def chimeText : String := "DEFINE \"b\"\nPAGE @a\nEXEC #CHIME @a \"high\" // once\nEXEC #CHIME"

/-- The page with both calls. -/
def chimePage : Page := ⟨"a", [.exec "CHIME" ["@a", "\"high\""], .exec "CHIME" []]⟩

theorem read_chimeText : Script.read chimeText = .ok ⟨"b", ["a"], [], [chimePage]⟩ ∧
    (codeLines chimeText.toList)[2]? = some ⟨3, "EXEC #CHIME @a \"high\"".toList,
      [.keyword .exec, .exec "CHIME", .page "a", .text "high"]⟩ ∧
    diagnostics chimeCatalog chimeText =
      [⟨3, 16, 22, "\"high\" is not a preset for tone (CHIME)", .hint⟩,
        ⟨4, 6, 12, "CHIME requires argument room", .warning⟩] := by
  decide +kernel

/-- The first call has no more than a hint, so its entry allows it. -/
theorem allows_of_no_warning_chimeText :
    Script.read chimeText = .ok ⟨"b", ["a"], [], [chimePage]⟩ ∧
    Command.exec "CHIME" ["@a", "\"high\""] ∈ chimePage.commands ∧
    chimeCatalog.get? "CHIME" = some chimeEntry ∧ chimeEntry.Allows ["@a", "\"high\""] := by
  obtain ⟨hread, hline, hreport⟩ := read_chimeText
  have hexec : Command.exec "CHIME" ["@a", "\"high\""] ∈ chimePage.commands := List.mem_cons_self
  have hentry : chimeCatalog.get? "CHIME" = some chimeEntry := by decide
  refine ⟨hread, hexec, hentry, ?_⟩
  refine (Script.allows_of_no_warning hread List.mem_cons_self hexec (by decide) hentry).2 _
    (List.mem_of_getElem? hline) (by decide +kernel) ?_
  rw [hreport]
  decide

end Gamebook
