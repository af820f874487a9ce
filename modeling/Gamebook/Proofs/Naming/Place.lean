import Gamebook.Proofs.Check.Accepted

/-!
Gamebook.Proofs.Naming.Place — where names stand in a text.

What a report says about names is measured by the places of these names. A place is found by looking
at every character of a line in turn (`namePlaces`): there is no search that goes on behind a match,
and no set of names that were seen.

* `usedNames`: the names in the code of all lines of code but the ones that declare such names.
* `givenNames`: the names that PAGE or FLAG lines declare.
* `repeated`: those of them that a place in front has too.

`Line.inCode` says which characters of a line belong to its code, again one by one.
-/

namespace Gamebook

open Text

/-! ## Names behind a sigil -/

/-- The names behind a sigil: for each visible place of the sigil the number of characters in front
of it, and the longest run of word characters behind it, if that is not empty. -/
def namePlaces (sigil : Char) (visible : Nat → Bool) (s : List Char) : List (Nat × List Char) :=
  (List.range s.length).filterMap fun i =>
    if s[i]? = some sigil ∧ visible i = true ∧ wordRun (s.drop (i + 1)) ≠ [] then
      some (i, wordRun (s.drop (i + 1)))
    else none

section

variable {sigil : Char} {visible : Nat → Bool}

@[simp] theorem namePlaces_nil : namePlaces sigil visible [] = [] := rfl

theorem namePlaces_cons (c : Char) (s : List Char) :
    namePlaces sigil visible (c :: s) =
      (if c = sigil ∧ visible 0 = true ∧ wordRun s ≠ [] then [(0, wordRun s)] else []) ++
        (namePlaces sigil (fun i => visible (i + 1)) s).map fun p => (p.1 + 1, p.2) := by
  rw [namePlaces, List.length_cons, List.range_succ_eq_map, List.filterMap_cons, List.filterMap_map,
    namePlaces, List.map_filterMap]
  simp only [Function.comp_def, Nat.succ_eq_add_one, List.getElem?_cons_succ, List.drop_succ_cons,
    List.getElem?_cons_zero, Option.some.injEq, List.drop_zero, apply_ite (Option.map _),
    Option.map_some, Option.map_none]
  by_cases hfirst : c = sigil ∧ visible 0 = true ∧ wordRun s ≠ []
  · rw [if_pos hfirst, if_pos hfirst]
    rfl
  · rw [if_neg hfirst, if_neg hfirst]
    rfl

/-- Where no sigil is visible, no name is. -/
theorem namePlaces_eq_nil {s : List Char}
    (h : ∀ i, visible i = true → s[i]? ≠ some sigil) : namePlaces sigil visible s = [] := by
  refine List.filterMap_eq_nil_iff.2 fun i _ => if_neg ?_
  rintro ⟨hsigil, hvisible, -⟩
  exact h i hvisible hsigil

/-- What stands behind a text adds no name and changes none, if no word goes on there and no sigil
is visible. -/
theorem namePlaces_append {s t : List Char} (hhead : ∀ c ∈ t.head?, isWordChar c = false)
    (h : ∀ i, visible (s.length + i) = true → t[i]? ≠ some sigil) :
    namePlaces sigil visible (s ++ t) = namePlaces sigil visible s := by
  induction s generalizing visible with
  | nil =>
    rw [List.nil_append, namePlaces_nil]
    exact namePlaces_eq_nil fun i hi => h i (by rwa [List.length_nil, Nat.zero_add])
  | cons c s ih =>
    have hbehind := @ih (fun i => visible (i + 1)) fun i hi =>
      h i (by rwa [List.length_cons, Nat.add_right_comm])
    rw [List.cons_append, namePlaces_cons, namePlaces_cons, hbehind, wordRun_append_of_head hhead]

/-- It is enough to know where the sigils are visible. -/
theorem namePlaces_congr {visible' : Nat → Bool} {s : List Char}
    (h : ∀ i, s[i]? = some sigil → visible i = visible' i) :
    namePlaces sigil visible s = namePlaces sigil visible' s := by
  unfold namePlaces
  congr 1
  funext i
  by_cases hs : s[i]? = some sigil
  · rw [h i hs]
  · rw [if_neg fun hand => hs hand.1, if_neg fun hand => hs hand.1]

/-- A name stands on its line where its place says. -/
theorem exists_append_of_mem_namePlaces {s name : List Char} {i : Nat}
    (h : (i, name) ∈ namePlaces sigil visible s) :
    ∃ r, s = s.take i ++ sigil :: name ++ r ∧ name ≠ [] ∧ (s.take i).length = i := by
  obtain ⟨j, hj, hif⟩ := List.mem_filterMap.1 h
  obtain ⟨⟨hsigil, -, hne⟩, hpair⟩ := Option.ite_none_right_eq_some.1 hif
  obtain ⟨rfl, rfl⟩ := Prod.mk.inj (Option.some.inj hpair)
  have hlt := List.mem_range.1 hj
  refine ⟨(s.drop (j + 1)).dropWhile isWordChar, ?_, hne, List.length_take_of_le hlt.le⟩
  obtain ⟨_, hget⟩ := List.getElem?_eq_some_iff.1 hsigil
  rw [List.append_assoc, List.cons_append, Pattern.wordRun_append_dropWhile, ← hget,
    List.getElem_cons_drop, List.take_append_drop]

end

/-! ## The code of a line -/

/-- An unquoted `//` starts behind `i` characters of the text. -/
def startsCommentAt (s : List Char) (i : Nat) : Bool :=
  !quotedAt false (s.take i) && startsWith ['/', '/'] (s.drop i)

/-- The character behind `i` others belongs to the code of the line. On a text line all characters
up to the marker do; on any other line those that are not quoted and have no comment in front of
them. -/
def Line.inCode (line : Line) (i : Nat) : Bool :=
  match layout? line.raw with
  | some l => byteLength (line.raw.take i) ≤ l.marker
  | none =>
    !quotedAt false (line.raw.take i) &&
      (List.range (i + 1)).all fun j => !startsCommentAt line.raw j

/-- No comment starts in what is left when the comment is cut. -/
theorem startsCommentAt_of_lt {s : List Char} {j : Nat} (h : j < (stripComment s).length) :
    startsCommentAt s j = false := by
  have hcut : ∀ (s : List Char) (q : Bool) (j : Nat), j < (stripCommentFrom q s).length →
      quotedAt q (s.take j) = false → startsWith ['/', '/'] (s.drop j) = false := by
    intro s
    induction s with
    | nil => intro q j hj; exact absurd hj (by simp [stripCommentFrom])
    | cons c s ih =>
      intro q j hj hq
      rw [stripCommentFrom] at hj
      split at hj
      next => exact absurd hj (by simp)
      next hc =>
        cases j with
        | succ j => exact ih (quotedAfter q c) j (Nat.lt_of_succ_lt_succ hj) hq
        | zero =>
          rw [List.take_zero, quotedAt_nil] at hq
          rw [← Bool.not_eq_true, startsWith_iff]
          rintro ⟨r, hr⟩
          obtain ⟨rfl, rfl⟩ := List.cons.inj hr
          exact hc (by simp [hq])
  rw [startsCommentAt]
  cases hq : quotedAt false (s.take j) with
  | true => rfl
  | false => rw [hcut s false j h hq]; rfl

/-- A comment that was cut starts where the cut is. -/
theorem startsCommentAt_length {s r : List Char} (hs : s = stripComment s ++ '/' :: '/' :: r)
    (hq : quotedAt false (stripComment s) = false) :
    startsCommentAt s (stripComment s).length = true := by
  generalize stripComment s = p at hs hq ⊢
  rw [startsCommentAt, hs, List.take_left, List.drop_left, hq]
  rfl

/-! ## Names of a text -/

/-- A name of a text, and where it stands. -/
structure NamePlace where
  /-- The line. -/
  line : Line
  /-- The number of characters of the line in front of the sigil. -/
  index : Nat
  /-- The name, without its sigil. -/
  name : List Char
deriving DecidableEq, Repr

/-- The error about a name. The columns are those of the sigil and the name. -/
def NamePlace.error (saying : String) (p : NamePlace) : Diagnostic :=
  ⟨p.line.number, p.index + 1, p.index + 1 + (1 + p.name.length), saying ++ String.ofList p.name,
    .error⟩

/-- The names of a kind in the code of the lines, from the first line to the last one and from left
to right. The lines that declare such names are left out. -/
def usedNames (kind : NameKind) (lines : List Line) : List NamePlace :=
  lines.flatMap fun line =>
    if line.isCode = true ∧ line.keyword? ≠ some kind.keyword then
      (namePlaces kind.sigil line.inCode line.raw).map fun p => ⟨line, p.1, p.2⟩
    else []

/-- The arguments of a declaring line that declare a name: the first one of a PAGE line, all of a
FLAG line. -/
def NameKind.declaring (kind : NameKind) (args : List Segment) : List Segment :=
  match kind with
  | page => args.take 1
  | flag => args

/-- The name that a word gives: the longest run of word characters behind its sigil. -/
def givenName? (kind : NameKind) (word : List Char) : Option (List Char) :=
  if word.head? = some kind.sigil ∧ wordRun word.tail ≠ [] then some (wordRun word.tail) else none

/-- The names of a kind that the lines declare, from the first line to the last one and from left to
right. -/
def givenNames (kind : NameKind) (lines : List Line) : List NamePlace :=
  lines.flatMap fun line =>
    if line.keyword? = some kind.keyword then
      (kind.declaring (line.arguments kind.keyword)).filterMap fun arg =>
        (givenName? kind arg.text).map fun name =>
          ⟨line, (textBefore arg.start line.raw).length, name⟩
    else []

/-- The names that a place further in front has too. -/
def repeated (ps : List NamePlace) : List NamePlace :=
  ps.zipIdx.filterMap fun (p, i) => if ∃ q ∈ ps.take i, q.name = p.name then some p else none

/-- The diagnostic opens with this text. -/
def Diagnostic.opensWith (saying : String) (d : Diagnostic) : Bool :=
  startsWith saying.toList d.message.toList

/-! ## Declarations -/

theorem declaredName?_eq_givenName? (kind : NameKind) (word : List Char) :
    declaredName? kind word = givenName? kind word := by
  cases word with
  | nil => rfl
  | cons c rest => simp [declaredName?, givenName?]

/-- Where a declaration gives its name. -/
def Declaration.place (d : Declaration) : NamePlace :=
  ⟨d.line, (textBefore d.span.start d.line.raw).length, d.name.toList⟩

/-- Where all elements have the same key, those with a given key are all of them or none. -/
theorem filter_key_eq_ite {α β : Type} [DecidableEq β] {key : α → β} {k : β} {l : List α}
    (h : ∀ x ∈ l, key x = k) (b : β) :
    l.filter (fun x => key x = b) = if k = b then l else [] := by
  split
  next hk => exact List.filter_eq_self.2 fun x hx => decide_eq_true ((h x hx).trans hk)
  next hk =>
    refine List.filter_eq_nil_iff.2 fun x hx hb => hk ?_
    rw [← h x hx, of_decide_eq_true hb]

/-- The declarations of one kind among the arguments of a line. -/
theorem filter_filterMap_ofArgument? (line : Line) (k kind : NameKind) (args : List Segment) :
    (args.filterMap (Declaration.ofArgument? line k)).filter (fun d => d.kind = kind) =
      if k = kind then args.filterMap (Declaration.ofArgument? line k) else [] := by
  refine filter_key_eq_ite (fun d hd => ?_) kind
  obtain ⟨a, -, ha⟩ := List.mem_filterMap.1 hd
  obtain ⟨name, -, rfl⟩ := Option.map_eq_some_iff.1 ha
  rfl

/-- The declarations of a kind on a line are those of the arguments that declare. -/
theorem filter_declarations (line : Line) (kind : NameKind) :
    line.declarations.filter (fun d => d.kind = kind) =
      if line.keyword? = some kind.keyword then
        (kind.declaring (line.arguments kind.keyword)).filterMap
          (Declaration.ofArgument? line kind)
      else [] := by
  cases hk : line.keyword? with
  | none => simp [Line.declarations, hk]
  | some k =>
    rw [Line.declarations, hk]
    cases k with
    | page =>
      rw [filter_filterMap_ofArgument?]
      cases kind <;> rfl
    | flag =>
      rw [filter_filterMap_ofArgument?]
      cases kind <;> rfl
    | _ => cases kind <;> rfl

/-- **The names that lines give are those of their declarations**, in the same order. -/
theorem givenNames_eq (kind : NameKind) (lines : List Line) :
    givenNames kind lines =
      ((declarations lines).filter fun d => d.kind = kind).map Declaration.place := by
  have hplace : ∀ (line : Line) (arg : Segment),
      (Declaration.ofArgument? line kind arg).map Declaration.place =
        (givenName? kind arg.text).map fun name =>
          ⟨line, (textBefore arg.start line.raw).length, name⟩ := by
    intro line arg
    rw [Declaration.ofArgument?, declaredName?_eq_givenName?, Option.map_map]
    congr 1
    funext name
    simp [Declaration.place]
  rw [givenNames, declarations, List.filter_flatMap, List.map_flatMap]
  congr 1
  funext line
  rw [filter_declarations, apply_ite (List.map Declaration.place), List.map_filterMap]
  simp only [hplace, List.map_nil]

/-- What counts as declared are the names that the lines give. -/
theorem ofList_mem_declaredNames {kind : NameKind} {lines : List Line} {name : List Char} :
    String.ofList name ∈ declaredNames kind (declarations lines) ↔
      ∃ q ∈ givenNames kind lines, q.name = name := by
  rw [givenNames_eq, declaredNames, List.mem_filterMap]
  constructor
  · rintro ⟨d, hd, h⟩
    obtain ⟨hkind, hname⟩ := Option.ite_none_right_eq_some.1 h
    refine ⟨d.place, List.mem_map_of_mem (List.mem_filter.2 ⟨hd, decide_eq_true hkind⟩), ?_⟩
    show d.name.toList = name
    rw [Option.some.inj hname, String.toList_ofList]
  · rintro ⟨q, hq, rfl⟩
    obtain ⟨d, hd, rfl⟩ := List.mem_map.1 hq
    obtain ⟨hd, hkind⟩ := List.mem_filter.1 hd
    refine ⟨d, hd, ?_⟩
    rw [if_pos (of_decide_eq_true hkind)]
    exact congrArg some String.ofList_toList.symm

end Gamebook
