import Gamebook.Proofs.Naming.Report

/-!
Gamebook.Proofs.Naming.Duplicate — a report names all repeated declarations, and each of them once.

The check walks down all declarations of a text, of pages and of flags together, with the names that
it has seen. Among names of one kind these are the names of the declarations in front, and names of
the other kind make no difference. That is the invariant of the walk (`Remembers`), and one step of
it is one declaration (`repeatedBehind_cons`).

`diagnostics_duplicate` is the result, for pages and for flags.
-/

namespace Gamebook

open Text

/-! ## Declarations behind others -/

/-- The names that a place in front has too, where the places of `front` stand in front of all. -/
def repeatedBehind (front ps : List NamePlace) : List NamePlace :=
  (ps.zipIdx front.length).filterMap fun (p, i) =>
    if ∃ q ∈ (front ++ ps).take i, q.name = p.name then some p else none

theorem repeated_eq (ps : List NamePlace) : repeated ps = repeatedBehind [] ps := rfl

/-- The first name is compared with those in front, and then it is one of them. -/
theorem repeatedBehind_cons (front : List NamePlace) (p : NamePlace) (ps : List NamePlace) :
    repeatedBehind front (p :: ps) =
      (if ∃ q ∈ front, q.name = p.name then [p] else []) ++ repeatedBehind (front ++ [p]) ps := by
  have hlength : (front ++ [p]).length = front.length + 1 := List.length_append
  rw [repeatedBehind, repeatedBehind, List.zipIdx_cons, List.filterMap_cons, hlength,
    ← List.append_cons]
  dsimp only
  rw [List.take_left]
  by_cases hrepeated : ∃ q ∈ front, q.name = p.name
  · rw [if_pos hrepeated, if_pos hrepeated]
    rfl
  · rw [if_neg hrepeated, if_neg hrepeated]
    rfl

/-! ## The walk -/

/-- Of the names of this kind, those were seen that the places have. -/
def Remembers (kind : NameKind) (seen : List (NameKind × String)) (front : List NamePlace) : Prop :=
  ∀ name, (kind, name) ∈ seen ↔ ∃ q ∈ front, q.name = name.toList

section

variable {kind : NameKind} {seen : List (NameKind × String)} {front : List NamePlace}

theorem Remembers.nil : Remembers kind [] [] := by
  intro name
  simp

theorem exists_mem_concat_place_iff {d : Declaration} {name : String} :
    (∃ q ∈ front ++ [d.place], q.name = name.toList) ↔
      (∃ q ∈ front, q.name = name.toList) ∨ d.name = name := by
  simp [or_and_right, exists_or, Declaration.place, String.toList_inj]

/-- A name that is added is remembered. -/
theorem Remembers.cons (h : Remembers kind seen front) {d : Declaration} (hkind : d.kind = kind) :
    Remembers kind ((d.kind, d.name) :: seen) (front ++ [d.place]) := by
  intro name
  rw [exists_mem_concat_place_iff, ← h name, List.mem_cons, hkind, Prod.mk.injEq, or_comm]
  simp [eq_comm]

/-- A name that was seen is no news. -/
theorem Remembers.append (h : Remembers kind seen front) {d : Declaration}
    (hmem : (kind, d.name) ∈ seen) : Remembers kind seen (front ++ [d.place]) := by
  intro name
  rw [exists_mem_concat_place_iff, ← h name]
  refine ⟨Or.inl, ?_⟩
  rintro (hname | rfl)
  · exact hname
  · exact hmem

/-- Names of the other kind do not count. -/
theorem Remembers.cons_of_ne (h : Remembers kind seen front) {d : Declaration}
    (hkind : d.kind ≠ kind) : Remembers kind ((d.kind, d.name) :: seen) front := by
  intro name
  rw [← h name, List.mem_cons, Prod.mk.injEq]
  exact ⟨fun hmem => hmem.resolve_left fun heq => hkind heq.1.symm, Or.inr⟩

end

/-- The mark on a declaration whose name was declared before. -/
def Declaration.duplicateMark (d : Declaration) : Mark := ⟨d.line, d.span, .duplicate d.kind d.name⟩

/-- **The walk names what is repeated**: the marks on declarations of one kind are the errors about
those of them that have a name of a declaration in front. -/
theorem filterMap_duplicateMarks {kind : NameKind} {ds : List Declaration}
    (hplace : ∀ d ∈ ds, d.duplicateMark.diagnostic? =
      some (d.place.error (NameFault.duplicate.saying d.kind))) :
    ∀ {seen : List (NameKind × String)} {front : List NamePlace}, Remembers kind seen front →
      (faultMarks .duplicate kind (duplicateMarks seen ds)).filterMap Mark.diagnostic? =
        (repeatedBehind front ((ds.filter fun d => d.kind = kind).map Declaration.place)).map
          (NamePlace.error (NameFault.duplicate.saying kind)) := by
  induction ds with
  | nil => exact fun _ => rfl
  | cons d ds ih =>
    intro seen front h
    have ih := @ih fun e he => hplace e (List.mem_cons_of_mem _ he)
    have hmark := hplace d List.mem_cons_self
    rw [duplicateMarks]
    by_cases hkind : d.kind = kind
    · subst hkind
      have hrepeated : (∃ q ∈ front, q.name = d.place.name) ↔ (d.kind, d.name) ∈ seen :=
        (h d.name).symm
      rw [List.filter_cons_of_pos (by simp), List.map_cons, repeatedBehind_cons, List.map_append]
      by_cases hseen : (d.kind, d.name) ∈ seen
      · have hfault : faultMarks .duplicate d.kind (d.duplicateMark :: duplicateMarks seen ds) =
            d.duplicateMark :: faultMarks .duplicate d.kind (duplicateMarks seen ds) :=
          List.filter_cons_of_pos (decide_eq_true rfl)
        rw [if_pos hseen, if_pos (hrepeated.2 hseen), ← ih (h.append hseen)]
        exact (congrArg _ hfault).trans (List.filterMap_cons_some hmark)
      · rw [if_neg hseen, if_neg fun hq => hseen (hrepeated.1 hq), ih (h.cons rfl)]
        rfl
    · rw [List.filter_cons_of_neg (by simpa using hkind)]
      split
      next =>
        have hfault : faultMarks .duplicate kind (d.duplicateMark :: duplicateMarks seen ds) =
            faultMarks .duplicate kind (duplicateMarks seen ds) := by
          refine List.filter_cons_of_neg fun heq => hkind ?_
          simpa [Declaration.duplicateMark, Cause.nameFault?] using heq
        exact (congrArg _ hfault).trans (ih h)
      next => exact ih (h.cons_of_ne hkind)

/-! ## Diagnostics -/

/-- A declaration is marked at the place where it gives its name. -/
theorem diagnostic?_duplicateMark {n : Nat} {raw : List Char} {d : Declaration}
    (h : d ∈ (Line.ofRaw n raw).declarations) :
    d.duplicateMark.diagnostic? = some (d.place.error (NameFault.duplicate.saying d.kind)) := by
  obtain ⟨⟨w, -, ⟨p, r, hraw, hspan⟩, rfl⟩, -⟩ := onWord_of_mem_declarations h
  dsimp only at hraw hspan
  have hname : (Cause.duplicate d.kind d.name).message =
      NameFault.duplicate.saying d.kind ++ String.ofList d.name.toList := by
    rw [String.ofList_toList]
    rfl
  have hindex : (textBefore d.span.start d.line.raw).length = p.length := by
    rw [hspan, hraw, List.append_assoc, textBefore_byteLength]
  rw [Declaration.duplicateMark, hspan, diagnostic?_name hraw hname rfl, Declaration.place, hindex]

/-- The walk down the lines says nothing about declarations. -/
theorem faultMarks_duplicate_lineMarks (d : Declared) (s : CheckState) (line : Line)
    (kind : NameKind) : faultMarks .duplicate kind (lineMarks d s line) = [] := by
  refine faultMarks_eq_nil (fun m hm horigin => ?_) kind
  rw [NameFault.origin] at horigin
  obtain ⟨-, h | h | h | h | h⟩ := mem_lineMarks_iff.1 hm
  · exact absurd (origin_of_mem_keywordMarks h) (by simp [horigin])
  · rcases origin_of_mem_referenceMarks h with h | ⟨h, -⟩ <;> simp [horigin] at h
  · exact absurd h ((comesFrom_joinMarks line).notMem (by simp [horigin]))
  · exact absurd h ((comesFrom_placementMarks line).notMem (by simp [horigin]))
  · exact absurd h ((comesFrom_negationMarks line).notMem (by simp [horigin]))

/-- **A report names the repeated declarations of a text, each of them once.** Pages are declared by
the first argument of a PAGE line, flags by all arguments of a FLAG line, where the sigil and a word
stand at its start. The errors about repeated declarations of pages, and those about flags, are the
declarations of that kind that have the name of one in front of them, at their places and in their
order. The first declaration of a name is no error, and pages and flags do not get in each other's
way. -/
theorem diagnostics_duplicate (catalog : Catalog) (text : String) (kind : NameKind) :
    (diagnostics catalog text).filter
        (fun d => d.opensWith ("duplicate " ++ kind.noun ++ " declaration: ")) =
      (repeated (givenNames kind (Line.ofText text.toList))).map
        (NamePlace.error ("duplicate " ++ kind.noun ++ " declaration: ")) := by
  have hplace : ∀ d ∈ declarations (Line.ofText text.toList), d.duplicateMark.diagnostic? =
      some (d.place.error (NameFault.duplicate.saying d.kind)) := by
    intro d hd
    obtain ⟨line, hline, hd⟩ := List.mem_flatMap.1 hd
    obtain ⟨n, raw, -, rfl⟩ := Line.mem_ofText.1 hline
    exact diagnostic?_duplicateMark hd
  refine (filter_diagnostics .duplicate kind catalog text).trans ?_
  rw [allMarks, faultMarks_append, faultMarks_append, List.filterMap_append,
    List.filterMap_append, filterMap_duplicateMarks hplace Remembers.nil, givenNames_eq,
    repeated_eq, (comesFrom_repeatedHeaderMarks _).faultMarks_eq_nil (by decide),
    faultMarks_marksFrom fun s line => faultMarks_duplicate_lineMarks _ s line kind]
  simp [NameFault.saying]

/-- A name is repeated within one line, and another one where its argument goes on behind it. -/
example : (repeated (givenNames .flag (Line.ofText
      "PAGE @a\nFLAG $a $b $a\nFLAG b $b: // $b\nPAGE @a".toList))).map
    (fun p => (p.line.number, p.index, String.ofList p.name)) = [(2, 11, "a"), (3, 7, "b")] := by
  decide +kernel

end Gamebook
