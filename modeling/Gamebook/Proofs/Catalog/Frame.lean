import Gamebook.Proofs.Check.Origin
import Gamebook.Proofs.Soundness.Command
import Gamebook.Proofs.Soundness.Header
import Mathlib.Data.Multiset.AddSub

/-!
Gamebook.Proofs.Catalog.Frame — what a report owes to the catalog.

Two checks ask the catalog (`Origin.asksCatalog`): the one for the arguments of a command, and the
one for commands that are not listed. No other check does, and nothing that is carried from line to
line hangs on the catalog. So without the causes of these two, the marks for any catalog are the marks
for the empty one, in the same order (`filter_allMarks`).

`diagnostics_frame` says what that means for reports.
-/

namespace Gamebook

open Text

/-- The check looks into the catalog. -/
def Origin.asksCatalog : Origin → Bool
  | command | listing => true
  | _ => false

/-- The cause was not found in the catalog. -/
def Cause.isOwn (cause : Cause) : Bool := !cause.origin.asksCatalog

/-- Marks of one check are own marks, or none of them is. -/
theorem ComesFrom.filter_isOwn {origin : Origin} {ms : List Mark} (h : ComesFrom origin ms) :
    (ms.filter fun m => m.cause.isOwn) = if origin.asksCatalog then [] else ms := by
  unfold Cause.isOwn
  rw [h.filter_eq fun o => !o.asksCatalog]
  cases origin.asksCatalog <;> rfl

/-! ## Line by line -/

section

variable (catalog : Catalog) (d : Declared) (line : Line) (k : Keyword)

theorem commandMarks_empty (args : List Segment) : commandMarks .empty line args = [] := by
  unfold commandMarks
  split
  · rfl
  · split <;> rfl

theorem filter_argumentMarks :
    ((argumentMarks catalog line k).filter fun m => m.cause.isOwn) =
      argumentMarks .empty line k := by
  unfold argumentMarks
  split
  · exact (comesFrom_fixedArgumentMarks _ _).filter_isOwn
  · rw [commandMarks_empty, (comesFrom_commandMarks catalog _).filter_isOwn]
    rfl

theorem filter_keywordMarks (s : CheckState) :
    ((keywordMarks d s line).filter fun m => m.cause.isOwn) =
      keywordMarks { d with catalog := .empty } s line := by
  unfold keywordMarks
  split
  · rfl
  next k _ =>
    rw [List.filter_append, List.filter_append, filter_argumentMarks,
      (comesFrom_previousMarks _).filter_isOwn, (comesFrom_menuMarks _).filter_isOwn]
    rfl

theorem filter_referenceMarks :
    ((referenceMarks d line).filter fun m => m.cause.isOwn) =
      referenceMarks { d with catalog := .empty } line := by
  have hlisting : ((if d.catalog.isEmpty then [] else unknownCommandMarks d line).filter
      fun m => m.cause.isOwn) = [] := by
    split
    · rfl
    · exact (comesFrom_unknownCommandMarks d line).filter_isOwn
  have hpages : ((if line.keyword? = some .page then metaMarks line else pageMarks d line).filter
      fun m => m.cause.isOwn) =
        if line.keyword? = some .page then metaMarks line else pageMarks d line := by
    split
    · exact (comesFrom_metaMarks line).filter_isOwn
    · exact (comesFrom_pageMarks d line).filter_isOwn
  have hflags : ((if line.keyword? = some .flag then [] else flagMarks d line).filter
      fun m => m.cause.isOwn) = if line.keyword? = some .flag then [] else flagMarks d line := by
    split
    · rfl
    · exact (comesFrom_flagMarks d line).filter_isOwn
  rw [referenceMarks, List.filter_append, List.filter_append, hlisting, hpages, hflags]
  rfl

theorem filter_codeMarks :
    ((codeMarks d line).filter fun m => m.cause.isOwn) =
      codeMarks { d with catalog := .empty } line := by
  simp only [codeMarks, List.filter_append, filter_referenceMarks,
    (comesFrom_joinMarks line).filter_isOwn, (comesFrom_placementMarks line).filter_isOwn,
    (comesFrom_negationMarks line).filter_isOwn, Origin.asksCatalog, Bool.false_eq_true, if_false]

/-- **On a line**, all own marks are there with the empty catalog. -/
theorem filter_lineMarks (s : CheckState) :
    ((lineMarks d s line).filter fun m => m.cause.isOwn) =
      lineMarks { d with catalog := .empty } s line := by
  unfold lineMarks
  split
  · rw [List.filter_append, filter_keywordMarks, filter_codeMarks]
  · rfl

end

/-! ## The whole text -/

theorem filter_marksFrom (d : Declared) (lines : List Line) (s : CheckState) :
    ((marksFrom d s lines).filter fun m => m.cause.isOwn) =
      marksFrom { d with catalog := .empty } s lines := by
  induction lines generalizing s with
  | nil => rfl
  | cons line lines ih => rw [marksFrom, marksFrom, List.filter_append, filter_lineMarks, ih]

/-- **Own marks do not hang on the catalog.** -/
theorem filter_allMarks (catalog : Catalog) (lines : List Line) :
    ((allMarks catalog lines).filter fun m => m.cause.isOwn) = allMarks .empty lines := by
  rw [allMarks, List.filter_append, List.filter_append,
    (comesFrom_repeatedHeaderMarks lines).filter_isOwn,
    (comesFrom_duplicateMarks _ _).filter_isOwn, filter_marksFrom]
  rfl

theorem filter_headerFindings (lines : List Line) :
    ((headerFindings lines).filter fun f => f.cause.isOwn) = headerFindings lines := by
  unfold headerFindings
  split
  · split <;> rfl
  · rfl

/-- **Own findings do not hang on the catalog.** -/
theorem filter_findings (catalog : Catalog) (text : String) :
    ((findings catalog text).filter fun f => f.cause.isOwn) = findings .empty text := by
  rw [findings, findings, List.filter_append, filter_headerFindings,
    filter_filterMap_finding? Cause.isOwn, filter_allMarks]

/-! ## What is left over -/

/-- What a report says because of the catalog: a command is not listed, or an argument of a command
that is listed may be wrong. -/
inductive Diagnostic.OwedTo (catalog : Catalog) (text : String) (d : Diagnostic) : Prop
  /-- A command that is not listed. -/
  | unlisted (name : String) (hname : catalog.contains name = false)
      (hmessage : d.message = "undefined command: " ++ name) (hseverity : d.severity = .error)
  /-- A line that opens with EXEC, and names a command that is listed. -/
  | listed {line : Line} (hline : line ∈ Line.ofText text.toList) (hnumber : line.number = d.line)
      (hkeyword : line.keyword? = some .exec) {first : Segment} {values : List Segment}
      (harguments : line.arguments .exec = first :: values) {name : String} {rest : List Char}
      (hfirst : first.text = '#' :: (name.toList ++ rest)) (hname : IsCommandName name)
      (hrest : ∀ c ∈ rest.head?, isCommandChar c = false) (hlisted : catalog.contains name = true)
      (hseverity : d.severity = .warning ∨ d.severity = .hint)

theorem Cause.severity_of_origin_command {c : Cause} (h : c.origin = .command) :
    c.severity = .warning ∨ c.severity = .hint := by
  cases c <;> simp_all [origin, severity]

/-- A mark on the arguments of a command: the first one names it, and it is listed. -/
theorem exists_command_of_mem_commandMarks {catalog : Catalog} {line : Line} {args : List Segment}
    {m : Mark} (h : m ∈ commandMarks catalog line args) :
    ∃ first values name rest, args = first :: values ∧
      first.text = '#' :: (String.toList name ++ rest) ∧ IsCommandName name ∧
        (∀ c ∈ rest.head?, isCommandChar c = false) ∧ catalog.contains name = true := by
  unfold commandMarks at h
  split at h
  · exact absurd h (by simp)
  next first values =>
    split at h
    · exact absurd h (by simp)
    next name hname =>
      split at h
      · exact absurd h (by simp)
      next entry hentry =>
        unfold commandName? at hname
        split at hname
        next word htext =>
          rw [Option.ite_none_left_eq_some, Option.some.injEq] at hname
          obtain ⟨hne, rfl⟩ := hname
          refine ⟨first, values, String.ofList (word.takeWhile isCommandChar),
            word.dropWhile isCommandChar, rfl, ?_, ⟨?_, ?_⟩, ?_, ?_⟩
          · rw [htext, String.toList_ofList, List.takeWhile_append_dropWhile]
          · rw [ne_eq, ← String.toList_inj, String.toList_ofList]
            exact hne
          · rw [String.toList_ofList]
            exact fun c hc => List.mem_takeWhile_imp hc
          · intro c hc
            have hhead := List.head?_dropWhile_not isCommandChar word
            rw [Option.mem_def.1 hc] at hhead
            simpa using hhead
          · rw [Catalog.contains, hentry]
            rfl
        next => exact absurd hname (by simp)

/-- **A mark that is not own** is about a command that is not listed, or it lies on a line with a
command that is. -/
theorem owedTo_of_mem_lineMarks {catalog : Catalog} {text : String} {d : Declared}
    (hd : d.catalog = catalog) {s : CheckState} {line : Line}
    (hline : line ∈ Line.ofText text.toList) {m : Mark} (hm : m ∈ lineMarks d s line)
    (hown : m.cause.isOwn = false) {f : Finding} (hf : m.finding? = some f) :
    f.diagnostic.OwedTo catalog text := by
  subst hd
  obtain ⟨hcause, hnumber⟩ := Mark.cause_of_finding? hf
  rw [line_eq_of_mem_lineMarks hm] at hnumber
  have horigin : m.cause.origin = .command ∨ m.cause.origin = .listing := by
    unfold Cause.isOwn at hown
    cases horigin : m.cause.origin <;> simp_all [Origin.asksCatalog]
  rcases horigin with horigin | horigin
  · obtain ⟨hk, hm⟩ := mem_commandMarks_of_origin hm horigin
    obtain ⟨first, values, name, rest, hargs, hfirst, hname, hrest, hlisted⟩ :=
      exists_command_of_mem_commandMarks hm
    refine .listed hline hnumber.symm hk hargs hfirst hname hrest hlisted ?_
    rw [Finding.diagnostic, hcause]
    exact Cause.severity_of_origin_command horigin
  · obtain ⟨hit, -, hhit⟩ := List.mem_filterMap.1 (mem_unknownCommandMarks_of_origin hm horigin)
    rw [Option.ite_none_left_eq_some, Option.some.injEq, Bool.not_eq_true] at hhit
    obtain ⟨hname, rfl⟩ := hhit
    refine .unlisted _ hname ?_ ?_ <;> rw [Finding.diagnostic, hcause] <;> rfl

theorem owedTo_of_mem_findings {catalog : Catalog} {text : String} {f : Finding}
    (hf : f ∈ findings catalog text) (hown : f.cause.isOwn = false) :
    f.diagnostic.OwedTo catalog text := by
  rcases mem_findings.1 hf with hf | ⟨m, hm, hfinding⟩
  · rw [← filter_headerFindings, List.mem_filter, hown] at hf
    exact absurd hf.2 (by decide)
  · rw [(Mark.cause_of_finding? hfinding).1] at hown
    rw [allMarks, List.mem_append, List.mem_append, mem_marksFrom] at hm
    rcases hm with (hm | hm) | ⟨before, line, after, hlines, hm⟩
    · rw [Cause.isOwn, comesFrom_repeatedHeaderMarks _ m hm] at hown
      exact absurd hown (by decide)
    · rw [Cause.isOwn, comesFrom_duplicateMarks _ _ m hm] at hown
      exact absurd hown (by decide)
    · refine owedTo_of_mem_lineMarks rfl ?_ hm hown hfinding
      rw [hlines]
      exact List.mem_append_right _ List.mem_cons_self

/-! ## Reports -/

theorem diagnostics_empty_sublist (catalog : Catalog) (text : String) :
    (diagnostics .empty text).Sublist (diagnostics catalog text) := by
  rw [diagnostics, diagnostics, ← filter_findings catalog]
  exact List.filter_sublist.map _

/-- **What is left over** beside the diagnostics for the empty catalog is owed to the catalog. -/
theorem owedTo_of_mem_diff {catalog : Catalog} {text : String} {d : Diagnostic}
    (hd : d ∈ (diagnostics catalog text).diff (diagnostics .empty text)) :
    d.OwedTo catalog text := by
  have hperm : (diagnostics catalog text : Multiset Diagnostic) =
      diagnostics .empty text +
        ((findings catalog text).filter fun f => !f.cause.isOwn).map Finding.diagnostic := by
    rw [diagnostics, diagnostics, ← filter_findings catalog, Multiset.coe_add, ← List.map_append]
    exact Multiset.coe_eq_coe.2 ((List.filter_append_perm _ _).symm.map _)
  rw [← Multiset.mem_coe, ← Multiset.coe_sub, hperm, Multiset.add_comm,
    Multiset.add_sub_cancel_right, Multiset.mem_coe] at hd
  obtain ⟨f, hf, rfl⟩ := List.mem_map.1 hd
  rw [List.mem_filter, Bool.not_eq_true'] at hf
  exact owedTo_of_mem_findings hf.1 hf.2

/-- **A catalog adds to a report, and takes nothing from it.** The diagnostics for the empty catalog
are there for every catalog, in the same order. All others are about commands that are not listed, or
they are no errors and lie on lines with a command that is. So a text that is accepted with a catalog
is accepted without one. -/
theorem diagnostics_frame (catalog : Catalog) (text : String) :
    (diagnostics .empty text).Sublist (diagnostics catalog text) ∧
    (∀ d ∈ (diagnostics catalog text).diff (diagnostics .empty text), d.OwedTo catalog text) ∧
    ((Report.ofText catalog text).isSuccess = true →
      (Report.ofText .empty text).isSuccess = true) := by
  have hsublist := diagnostics_empty_sublist catalog text
  refine ⟨hsublist, fun d hd => owedTo_of_mem_diff hd, fun hsuccess => ?_⟩
  have haccepted := Report.isSuccess_iff.1 hsuccess
  exact Report.isSuccess_iff.2 fun d hd => haccepted d (hsublist.subset hd)

/-- A catalog with one command, which expects one of two texts. -/
def ringCatalog : Catalog := ⟨[⟨"RING", [⟨"times", .text, true, ["one", "two"]⟩]⟩]⟩

/-- A text with a text that is not expected, a command that is not listed, and an error that has
nothing to do with either. -/
def ringText : String := "DEFINE \"t\"\nPAGE @a\nEXEC #RING \"six\"\nEXEC #GONG\nTO @b"

theorem diagnostics_ringText :
    diagnostics .empty ringText = [⟨5, 4, 6, "undefined page: b", .error⟩] ∧
      (diagnostics ringCatalog ringText).diff (diagnostics .empty ringText) =
        [⟨3, 12, 17, "\"six\" is not a preset for times (RING)", .hint⟩,
          ⟨4, 6, 11, "undefined command: GONG", .error⟩] ∧
      (Report.ofText shakeCatalog shakeText).isSuccess = true := by
  decide +kernel

/-- What is said about the text and about the command is owed to the catalog, and the call of a
command that is listed is accepted without a catalog too. -/
theorem diagnostics_frame_ringText :
    [⟨5, 4, 6, "undefined page: b", .error⟩].Sublist (diagnostics ringCatalog ringText) ∧
      Diagnostic.OwedTo ringCatalog ringText
        ⟨3, 12, 17, "\"six\" is not a preset for times (RING)", .hint⟩ ∧
      Diagnostic.OwedTo ringCatalog ringText ⟨4, 6, 11, "undefined command: GONG", .error⟩ ∧
      (Report.ofText shakeCatalog shakeText).isSuccess = true ∧
      (Report.ofText .empty shakeText).isSuccess = true := by
  obtain ⟨hempty, hdiff, hsuccess⟩ := diagnostics_ringText
  obtain ⟨hsublist, howed, -⟩ := diagnostics_frame ringCatalog ringText
  rw [hempty] at hsublist
  rw [hdiff] at howed
  refine ⟨hsublist, howed _ (by simp), howed _ (by simp), hsuccess, ?_⟩
  exact (diagnostics_frame shakeCatalog shakeText).2.2 hsuccess

end Gamebook
