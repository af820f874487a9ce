import Gamebook.Proofs.Naming.Report
import Gamebook.Proofs.Naming.Search
import Mathlib.Data.List.Basic

/-!
Gamebook.Proofs.Naming.Undeclared — a report names all undeclared names, and each of them once.

Marks on undeclared names come from one search on each line of code (`undeclaredMarks`), whatever
the state in which the line is reached. What the search finds are the names in the code of the line,
and what counts as declared are the names that all PAGE or FLAG lines give. So the errors about
undeclared names are those names of the text that are used and not given.

`diagnostics_undeclared` is the result, for pages and for flags.
-/

namespace Gamebook

open Text

/-- The declared names of a kind. -/
def Declared.names (d : Declared) : NameKind → List String
  | .page => d.pages
  | .flag => d.flags

/-! ## Marks on a line -/

/-- The marks on the names of a kind in the code of a line that are declared nowhere. -/
def undeclaredMarks (d : Declared) (kind : NameKind) (line : Line) : List Mark :=
  (((line.hits kind.pattern).filter fun hit => hit.lead = [kind.sigil]).filter
    fun hit => String.ofList hit.body ∉ d.names kind).map
      fun hit => line.markHit hit (.undeclared kind (String.ofList hit.body))

section

variable (d : Declared) (line : Line)

theorem pageMarks_eq : pageMarks d line = undeclaredMarks d .page line := by
  rw [undeclaredMarks, ← List.filterMap_eq_map, List.filterMap_filter, List.filterMap_filter]
  refine List.filterMap_congr fun hit _ => ?_
  by_cases hlead : hit.lead = ['@'] <;> by_cases hname : String.ofList hit.body ∈ d.pages <;>
    simp [hlead, hname, Declared.names, NameKind.sigil]

theorem flagMarks_eq : flagMarks d line = undeclaredMarks d .flag line := by
  rw [undeclaredMarks, ← List.filterMap_eq_map, List.filterMap_filter, List.filterMap_filter]
  refine List.filterMap_congr fun hit hhit => ?_
  obtain ⟨_, r, _, -, -, hat⟩ := Pattern.exists_append_of_mem_scan hhit
  obtain ⟨_, -, hlead, -⟩ := Pattern.at?_flagRef_eq_some hat
  by_cases hname : String.ofList hit.body ∈ d.flags <;>
    simp [hlead, hname, Declared.names, NameKind.sigil]

theorem faultMarks_undeclaredMarks (k kind : NameKind) :
    faultMarks .undeclared kind (undeclaredMarks d k line) =
      if k = kind then undeclaredMarks d k line else [] := by
  have hcause : ∀ m ∈ undeclaredMarks d k line, m.cause.nameFault? = some (.undeclared, k) := by
    intro m hm
    obtain ⟨hit, -, rfl⟩ := List.mem_map.1 hm
    rfl
  rw [faultMarks, filter_key_eq_ite hcause]
  simp only [Option.some.injEq, Prod.mk.injEq, true_and]

theorem faultMarks_referenceMarks (kind : NameKind) :
    faultMarks .undeclared kind (referenceMarks d line) =
      if line.keyword? = some kind.keyword then [] else undeclaredMarks d kind line := by
  have hmeta : faultMarks .undeclared kind (metaMarks line) = [] := by
    refine List.filter_eq_nil_iff.2 fun m hm => ?_
    obtain ⟨hit, -, rfl⟩ := List.mem_map.1 hm
    simp [Line.markHit, Line.markSegment, Cause.nameFault?]
  have hlisting : faultMarks .undeclared kind
      (if d.catalog.isEmpty then [] else unknownCommandMarks d line) = [] := by
    split
    · rfl
    · exact (comesFrom_unknownCommandMarks d line).faultMarks_eq_nil (by decide) kind
  have hnil : ∀ k : NameKind, faultMarks .undeclared k [] = [] := fun _ => rfl
  rw [referenceMarks, faultMarks_append, faultMarks_append, hlisting, List.append_nil,
    apply_ite (faultMarks _ _), apply_ite (faultMarks _ _), hmeta, hnil, pageMarks_eq, flagMarks_eq,
    faultMarks_undeclaredMarks, faultMarks_undeclaredMarks]
  cases kind <;> simp [NameKind.keyword] <;> rfl

theorem faultMarks_lineMarks (s : CheckState) (kind : NameKind) :
    faultMarks .undeclared kind (lineMarks d s line) =
      if line.isCode = true ∧ line.keyword? ≠ some kind.keyword then undeclaredMarks d kind line
      else [] := by
  have hkeyword : faultMarks .undeclared kind (keywordMarks d s line) = [] := by
    refine faultMarks_eq_nil (fun m hm horigin => ?_) kind
    exact absurd (origin_of_mem_keywordMarks hm) (by simp [horigin, NameFault.origin])
  have hcode : faultMarks .undeclared kind (codeMarks d line) =
      if line.keyword? = some kind.keyword then [] else undeclaredMarks d kind line := by
    rw [codeMarks, faultMarks_append, faultMarks_append, faultMarks_append,
      faultMarks_referenceMarks, (comesFrom_joinMarks line).faultMarks_eq_nil (by decide),
      (comesFrom_placementMarks line).faultMarks_eq_nil (by decide),
      (comesFrom_negationMarks line).faultMarks_eq_nil (by decide)]
    simp only [List.append_nil]
  rw [lineMarks]
  by_cases hline : line.isCode = true
  · rw [if_pos hline, faultMarks_append, hkeyword, hcode, List.nil_append]
    simp [hline, ite_not]
  · rw [if_neg hline, if_neg fun hand => hline hand.1]
    rfl

end

/-! ## Marks on a text -/

theorem faultMarks_allMarks (catalog : Catalog) (lines : List Line) (kind : NameKind) :
    faultMarks .undeclared kind (allMarks catalog lines) =
      lines.flatMap fun line =>
        if line.isCode = true ∧ line.keyword? ≠ some kind.keyword then
          undeclaredMarks (Declared.ofLines catalog lines) kind line
        else [] := by
  rw [allMarks, faultMarks_append, faultMarks_append,
    (comesFrom_repeatedHeaderMarks lines).faultMarks_eq_nil (by decide),
    (comesFrom_duplicateMarks _ _).faultMarks_eq_nil (by decide),
    faultMarks_marksFrom fun s line => faultMarks_lineMarks _ line s kind]
  rfl

/-! ## Diagnostics -/

/-- The errors about the names of a line, each at the place of its name. -/
theorem filterMap_undeclaredMarks (d : Declared) (kind : NameKind) (line : Line) :
    (undeclaredMarks d kind line).filterMap Mark.diagnostic? =
      (((namePlaces kind.sigil line.inCode line.raw).map
        fun p => (⟨line, p.1, p.2⟩ : NamePlace)).filter
          fun p => String.ofList p.name ∉ d.names kind).map
            (NamePlace.error (NameFault.undeclared.saying kind)) := by
  rw [undeclaredMarks, Line.filter_hits, List.filter_map, List.map_map, List.filterMap_map,
    List.filter_map, List.map_map]
  refine List.filterMap_eq_map_iff_forall_eq_some.2 fun p hp => ?_
  obtain ⟨r, hraw, -, hlength⟩ := exists_append_of_mem_namePlaces (List.mem_filter.1 hp).1
  have hmark : (line.markHit ⟨byteLength (line.raw.take p.1), [kind.sigil], p.2⟩
      (.undeclared kind (String.ofList p.2))).diagnostic? =
        some (NamePlace.error (NameFault.undeclared.saying kind)
          ⟨line, (line.raw.take p.1).length, p.2⟩) := diagnostic?_name hraw rfl rfl
  rw [hlength] at hmark
  exact hmark

theorem notMem_names_iff {catalog : Catalog} {lines : List Line} {kind : NameKind}
    {name : List Char} :
    String.ofList name ∉ (Declared.ofLines catalog lines).names kind ↔
      ∀ q ∈ givenNames kind lines, q.name ≠ name := by
  have hnames : (Declared.ofLines catalog lines).names kind =
      declaredNames kind (declarations lines) := by
    cases kind <;> rfl
  rw [hnames, ofList_mem_declaredNames]
  exact ⟨fun h q hq hname => h ⟨q, hq, hname⟩, fun h ⟨q, hq, hname⟩ => h q hq hname⟩

/-- **A report names the undeclared names of a text, each of them once for each time that it is
used.** A page is used where an `@` and a word stand in the code of a line that is no PAGE line, and
it is declared where a PAGE line has `@` and the same word at the start of its first argument. Flags
are the same, with `$` and with all arguments of FLAG lines. The errors about pages, and those about
flags, are the names that are used and not declared, at their places and in their order. -/
theorem diagnostics_undeclared (catalog : Catalog) (text : String) (kind : NameKind) :
    (diagnostics catalog text).filter
        (fun d => d.opensWith ("undefined " ++ kind.noun ++ ": ")) =
      ((usedNames kind (Line.ofText text.toList)).filter
        fun p => ∀ q ∈ givenNames kind (Line.ofText text.toList), q.name ≠ p.name).map
          (NamePlace.error ("undefined " ++ kind.noun ++ ": ")) := by
  refine (filter_diagnostics .undeclared kind catalog text).trans ?_
  rw [faultMarks_allMarks, List.filterMap_flatMap, usedNames, List.filter_flatMap, List.map_flatMap]
  refine List.flatMap_congr fun line _ => ?_
  split
  next =>
    rw [filterMap_undeclaredMarks]
    congr 1
    refine List.filter_congr fun p _ => ?_
    rw [Bool.eq_iff_iff, decide_eq_true_eq, decide_eq_true_eq, notMem_names_iff]
  next => rfl

/-- Names may touch. A caret, quotation marks and a comment keep a name out. -/
example : (usedNames .page [Line.ofRaw 4 "TO @a@b @^c \"@d\" @é\"@f\" // @g".toList]).map
    (fun p => (p.index, String.ofList p.name)) = [(3, "a"), (5, "b"), (17, "é")] := by
  decide +kernel

end Gamebook
