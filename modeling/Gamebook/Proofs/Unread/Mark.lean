import Gamebook.Check.Reference
import Gamebook.Proofs.Unread.Line

/-!
Gamebook.Proofs.Unread.Mark — the marks on lines that look alike.

Marks are alike when they stand for the same finding (`Mark.Alike`). Each check of a line puts alike
marks on alike lines, one for one and in the same order: it asks for the keyword, for words, and for
matches, and gets the same answers. There is one exception. A catalog may list the texts that a
command expects, and then the text of a literal is looked up there; so the catalogs here list none
(`Catalog.NoPresets`).
-/

namespace Gamebook

open Text

/-- The marks stand for the same finding, or for none. -/
def Mark.Alike (m m' : Mark) : Prop := m.finding? = m'.finding?

theorem filterMap_finding?_eq {ms ms' : List Mark} (h : List.Forall₂ Mark.Alike ms ms') :
    ms.filterMap Mark.finding? = ms'.filterMap Mark.finding? := by
  induction h with
  | nil => rfl
  | cons hm _ ih => rw [List.filterMap_cons, List.filterMap_cons, hm, ih]

/-- No argument of a command lists the texts that it expects. -/
def Catalog.NoPresets (catalog : Catalog) : Prop :=
  ∀ entry ∈ catalog.entries, ∀ parameter ∈ entry.parameters, parameter.presets = []

/-! ## Places of marks -/

namespace Hit.Alike

variable {s s' : List Char} {hit hit' : Hit}

theorem text_whole (h : hit.Alike s s' hit') : hit.whole.text = hit'.whole.text := by
  rw [Hit.whole, Hit.whole, h.lead, h.body]

theorem whole (h : hit.Alike s s' hit') : hit.whole.Alike s s' hit'.whole where
  text := by
    rw [h.text_whole]
    exact .refl _
  front w hw := h.place w hw.2
  stop := by
    have hplace := h.place _ (List.prefix_refl _)
    rw [Hit.whole, Hit.whole, Segment.stop, Segment.stop, ← h.lead, ← h.body]
    exact hplace

theorem captured (h : hit.Alike s s' hit') : hit.captured.Alike s s' hit'.captured := by
  have hfront : ∀ w, w <+: hit.body →
      SamePlace s s' (hit.captured.start + byteLength w) (hit'.captured.start + byteLength w) := by
    rintro w ⟨r, hr⟩
    have hplace := h.place (hit.lead ++ w) ⟨r, by rw [← hr, List.append_assoc]⟩
    rw [byteLength_append, ← Nat.add_assoc, ← Nat.add_assoc, h.lead] at hplace
    rw [Hit.captured, Hit.captured, h.lead]
    exact hplace
  refine ⟨?_, fun w hw => hfront w hw.2, ?_⟩
  · rw [Hit.captured, Hit.captured, h.body]
    exact .refl _
  · have hstop := hfront _ (List.prefix_refl _)
    rw [Segment.stop, Segment.stop]
    rw [Hit.captured, Hit.captured, ← h.body] at hstop ⊢
    exact hstop

end Hit.Alike

section

variable {line line' : Line} {k : Keyword}

namespace Line.Alike

theorem mark (h : line.Alike line') {a b a' b' : Nat} (hstart : SamePlace line.raw line'.raw a a')
    (hstop : SamePlace line.raw line'.raw b b') (cause : Cause) :
    Mark.Alike ⟨line, ⟨a, b⟩, cause⟩ ⟨line', ⟨a', b'⟩, cause⟩ := by
  rw [Mark.Alike, Mark.finding?, Mark.finding?]
  simp only [hstart.columns? hstop, h.number]

theorem markSegment (h : line.Alike line') {a a' : Segment}
    (ha : a.Alike line.raw line'.raw a') (cause : Cause) :
    Mark.Alike (line.markSegment a cause) (line'.markSegment a' cause) :=
  h.mark ha.start ha.stop cause

theorem markKeyword (h : line.Alike line') (hk : line.keyword? = some k) (cause : Cause) :
    Mark.Alike (line.markKeyword k cause) (line'.markKeyword k cause) :=
  h.mark (h.indent hk) (h.behind hk) cause

end Line.Alike

/-! ## What stands in front -/

theorem forall₂_previousMarks (h : line.Alike line') (hk : line.keyword? = some k)
    {previous previous' : Option Line}
    (hprevious : previous.map Line.keyword? = previous'.map Line.keyword?) :
    List.Forall₂ Mark.Alike (previousMarks previous line k) (previousMarks previous' line' k) := by
  cases previous with
  | none =>
    rw [Option.map_none, eq_comm, Option.map_eq_none_iff] at hprevious
    subst hprevious
    exact .nil
  | some p =>
    obtain ⟨p', rfl, hp⟩ := Option.map_eq_some_iff.1 hprevious.symm
    simp only [previousMarks, List.any_eq_true, Line.opens_trimmed_iff, hp]
    split
    · exact .nil
    · exact .cons (h.markKeyword hk _) .nil

/-! ## Arguments -/

theorem forall₂_zipIdx {α β : Type} {R : α → β → Prop} {as : List α} {bs : List β}
    (h : List.Forall₂ R as bs) (n : Nat) :
    List.Forall₂ (fun x y => R x.1 y.1 ∧ x.2 = y.2) (as.zipIdx n) (bs.zipIdx n) := by
  induction h generalizing n with
  | nil => exact .nil
  | cons hab _ ih => exact .cons ⟨hab, rfl⟩ (ih (n + 1))

theorem forall₂_missingMarks (h : line.Alike line') (hk : line.keyword? = some k)
    (specs : List ArgSpec) {args args' : List Segment} (hlength : args.length = args'.length) :
    List.Forall₂ Mark.Alike (missingMarks line k specs args)
      (missingMarks line' k specs args') := by
  have hspecs : List.Forall₂ Eq specs.zipIdx specs.zipIdx := List.forall₂_same.2 fun _ _ => rfl
  refine List.rel_filterMap ?_ hspecs
  rintro ⟨spec, i⟩ _ rfl
  simp only [hlength]
  split
  · exact .some (h.markKeyword hk _)
  · exact .none

theorem forall₂_shapeMarks (h : line.Alike line') (specs : List ArgSpec)
    {args args' : List Segment}
    (hargs : List.Forall₂ (Segment.Alike line.raw line'.raw) args args') :
    List.Forall₂ Mark.Alike (shapeMarks line k specs args) (shapeMarks line' k specs args') := by
  refine List.rel_filterMap ?_ (forall₂_zipIdx hargs 0)
  rintro ⟨a, i⟩ ⟨a', _⟩ ⟨ha, rfl⟩
  simp only
  split
  · exact .some (h.markSegment ha _)
  next spec _ =>
    rw [accepts_eq_of_reworded spec.kind ha.text]
    split
    · exact .none
    · exact .some (h.markSegment ha _)

theorem forall₂_fixedArgumentMarks (h : line.Alike line') (hk : line.keyword? = some k)
    (specs : List ArgSpec) {args args' : List Segment}
    (hargs : List.Forall₂ (Segment.Alike line.raw line'.raw) args args') :
    List.Forall₂ Mark.Alike (fixedArgumentMarks line k specs args)
      (fixedArgumentMarks line' k specs args') := by
  rw [fixedArgumentMarks, fixedArgumentMarks]
  split
  · cases hargs with
    | nil => exact .nil
    | cons _ _ => exact .cons (h.markKeyword hk _) .nil
  · exact List.rel_append (forall₂_missingMarks h hk specs hargs.length_eq)
      (forall₂_shapeMarks h specs hargs)

/-! ## Arguments of commands -/

theorem parameterCause?_eq (command : String) {parameter : Parameter}
    (hpresets : parameter.presets = []) {value value' : List Char} (h : Reworded value value') :
    parameterCause? command parameter value = parameterCause? command parameter value' := by
  rw [parameterCause?, parameterCause?]
  split
  · rfl
  next form _ => simp only [h.eq_of_looksInFront (looksInFront_fits form), hpresets, ne_eq,
      not_true_eq_false, false_and, and_false, if_false]

theorem forall₂_valueMarks (h : line.Alike line') (command : String) {parameter : Parameter}
    (hpresets : parameter.presets = []) {value value' : Segment}
    (hvalue : value.Alike line.raw line'.raw value') :
    List.Forall₂ Mark.Alike (valueMarks line command parameter value)
      (valueMarks line' command parameter value') := by
  have hfits : (ValueForm.all.any fun form => form.fits value.text) =
      ValueForm.all.any fun form => form.fits value'.text := by
    refine congrArg ValueForm.all.any (funext fun form => ?_)
    exact hvalue.text.eq_of_looksInFront (looksInFront_fits form)
  rw [valueMarks, valueMarks, hfits, parameterCause?_eq command hpresets hvalue.text]
  refine List.rel_append ?_ ?_
  · split
    · exact .nil
    · exact .cons (h.markSegment hvalue _) .nil
  · cases parameterCause? command parameter value'.text with
    | none => exact .nil
    | some cause => exact .cons (h.markSegment hvalue cause) .nil

theorem forall₂_parameterMarks (h : line.Alike line') (command : String) {a b a' b' : Nat}
    (hstart : SamePlace line.raw line'.raw a a') (hstop : SamePlace line.raw line'.raw b b') :
    ∀ {parameters : List Parameter} {values values' : List Segment},
      (∀ p ∈ parameters, p.presets = []) →
        List.Forall₂ (Segment.Alike line.raw line'.raw) values values' →
          List.Forall₂ Mark.Alike (parameterMarks line command ⟨a, b⟩ parameters values)
            (parameterMarks line' command ⟨a', b'⟩ parameters values')
  | [], _, _, _, _ => by
      rw [parameterMarks, parameterMarks]
      exact .nil
  | parameter :: parameters, [], _, hpresets, .nil => by
      rw [List.forall_mem_cons] at hpresets
      rw [parameterMarks, parameterMarks]
      refine List.rel_append ?_ (forall₂_parameterMarks h command hstart hstop hpresets.2 .nil)
      split
      · exact .cons (h.mark hstart hstop _) .nil
      · exact .nil
  | parameter :: parameters, _ :: _, _, hpresets, .cons hvalue hvalues => by
      rw [List.forall_mem_cons] at hpresets
      rw [parameterMarks, parameterMarks]
      exact List.rel_append (forall₂_valueMarks h command hpresets.1 hvalue)
        (forall₂_parameterMarks h command hstart hstop hpresets.2 hvalues)

theorem forall₂_commandMarks {catalog : Catalog} (hcatalog : catalog.NoPresets)
    (h : line.Alike line') {args args' : List Segment}
    (hargs : List.Forall₂ (Segment.Alike line.raw line'.raw) args args') :
    List.Forall₂ Mark.Alike (commandMarks catalog line args)
      (commandMarks catalog line' args') := by
  cases hargs with
  | nil => exact .nil
  | @cons first first' values values' hfirst hvalues =>
    rw [commandMarks, commandMarks, ← hfirst.text.eq_of_looksInFront looksInFront_commandName?]
    cases hname : commandName? first.text with
    | none => exact .nil
    | some name =>
      simp only
      cases hentry : catalog.get? (String.ofList name) with
      | none => exact .nil
      | some entry =>
        have hstop := hfirst.behind_name rfl (front_of_commandName? hname)
        have hpresets := hcatalog entry (List.mem_of_find?_eq_some hentry)
        simp only [entryMarks, hvalues.length_eq]
        refine List.rel_append ?_
          (forall₂_parameterMarks h _ hfirst.start hstop hpresets hvalues)
        split
        · exact .cons (h.mark hfirst.start hstop _) .nil
        · exact .nil

theorem forall₂_argumentMarks {catalog : Catalog} (hcatalog : catalog.NoPresets)
    (h : line.Alike line') (hk : line.keyword? = some k) :
    List.Forall₂ Mark.Alike (argumentMarks catalog line k) (argumentMarks catalog line' k) := by
  rw [argumentMarks, argumentMarks]
  split
  · exact forall₂_fixedArgumentMarks h hk _ (h.arguments hk)
  · exact forall₂_commandMarks hcatalog h (h.arguments hk)

/-! ## Menus -/

theorem any_accepts_eq {s s' : List Char} (kind : ArgKind) {args args' : List Segment}
    (h : List.Forall₂ (Segment.Alike s s') args args') :
    (args.any fun a => kind.accepts a.text) = args'.any fun a => kind.accepts a.text := by
  induction h with
  | nil => rfl
  | cons ha _ ih => rw [List.any_cons, List.any_cons, ih, accepts_eq_of_reworded kind ha.text]

/-- **The menu goes on in the same way.** -/
theorem MenuState.next_eq (h : line.Alike line') (menu : Option MenuState) :
    MenuState.next menu line = MenuState.next menu line' := by
  rw [MenuState.next, MenuState.next, ← h.keyword?]
  split
  next hk => rw [any_accepts_eq .time (h.arguments hk)]
  next => rfl
  next => rfl

theorem labelCause?_eq (state : MenuState) {label label' : List Char} (h : Reworded label label') :
    MenuState.labelCause? state label = MenuState.labelCause? state label' := by
  rw [MenuState.labelCause?, MenuState.labelCause?, h.eq_of_looksInFront looksInFront_ofWord?]

theorem forall₂_menuMarks (h : line.Alike line') (hk : line.keyword? = some k)
    (menu : Option MenuState) :
    List.Forall₂ Mark.Alike (MenuState.marks menu line k) (MenuState.marks menu line' k) := by
  by_cases his : k = .is
  · subst his
    have hargs := h.arguments hk
    unfold MenuState.marks
    generalize line.arguments .is = args at hargs ⊢
    generalize line'.arguments .is = args' at hargs ⊢
    cases hargs with
    | nil => exact .nil
    | @cons label label' _ _ hlabel _ =>
      simp only [labelCause?_eq _ hlabel.text]
      cases MenuState.labelCause? (menu.getD .untimed) label'.text with
      | none => exact .nil
      | some cause => exact .cons (h.markSegment hlabel cause) .nil
  · have hnil : ∀ line : Line, MenuState.marks menu line k = [] := by
      intro line
      cases k with
      | is => exact absurd rfl his
      | _ => rfl
    rw [hnil, hnil]
    exact .nil

/-! ## References -/

/-- Marks on the matches of a pattern, where the lines get the same ones. -/
theorem forall₂_map_hits (h : line.Alike line') (p : Pattern) {f f' : Hit → Mark}
    (hf : ∀ hit hit', hit.Alike line.raw line'.raw hit' → Mark.Alike (f hit) (f' hit')) :
    List.Forall₂ Mark.Alike ((line.hits p).map f) ((line'.hits p).map f') :=
  List.rel_map (fun hit hit' hhit => hf hit hit' hhit) (h.hits p)

theorem forall₂_metaMarks (h : line.Alike line') :
    List.Forall₂ Mark.Alike (metaMarks line) (metaMarks line') := by
  refine forall₂_map_hits h .metaRef fun hit hit' hhit => ?_
  rw [hhit.text_whole]
  exact h.markSegment hhit.whole _

theorem forall₂_pageMarks (d : Declared) (h : line.Alike line') :
    List.Forall₂ Mark.Alike (pageMarks d line) (pageMarks d line') := by
  refine List.rel_filterMap (fun hit hit' hhit => ?_) (h.hits .pageRef)
  rw [hhit.lead, hhit.body]
  split
  · exact .some (h.markSegment hhit.whole _)
  · exact .none

theorem forall₂_flagMarks (d : Declared) (h : line.Alike line') :
    List.Forall₂ Mark.Alike (flagMarks d line) (flagMarks d line') := by
  refine List.rel_filterMap (fun hit hit' hhit => ?_) (h.hits .flagRef)
  rw [hhit.body]
  split
  · exact .some (h.markSegment hhit.whole _)
  · exact .none

theorem forall₂_unknownCommandMarks (d : Declared) (h : line.Alike line') :
    List.Forall₂ Mark.Alike (unknownCommandMarks d line) (unknownCommandMarks d line') := by
  refine List.rel_filterMap (fun hit hit' hhit => ?_) (h.hits .execRef)
  rw [hhit.body]
  split
  · exact .none
  · exact .some (h.markSegment hhit.whole _)

theorem forall₂_referenceMarks (d : Declared) (h : line.Alike line') :
    List.Forall₂ Mark.Alike (referenceMarks d line) (referenceMarks d line') := by
  rw [referenceMarks, referenceMarks, ← h.keyword?]
  refine List.rel_append (List.rel_append ?_ ?_) ?_
  · split
    · exact forall₂_metaMarks h
    · exact forall₂_pageMarks d h
  · split
    · exact .nil
    · exact forall₂_flagMarks d h
  · split
    · exact .nil
    · exact forall₂_unknownCommandMarks d h

/-! ## Clauses -/

theorem forall₂_joinMarks (h : line.Alike line') :
    List.Forall₂ Mark.Alike (joinMarks line) (joinMarks line') := by
  have hfirst : ∀ p cause,
      List.Forall₂ Mark.Alike (firstMark line p cause) (firstMark line' p cause) :=
    fun p cause => List.rel_map (fun _ _ hhit => h.markSegment hhit.captured cause)
      (List.forall₂_take 1 (h.hits p))
  exact List.rel_append (hfirst _ _) (hfirst _ _)

theorem forall₂_placementMarks (h : line.Alike line') :
    List.Forall₂ Mark.Alike (placementMarks line) (placementMarks line') := by
  have htransition : line.isTransition = line'.isTransition := by
    rw [Line.isTransition, Line.isTransition, h.keyword?]
  rw [placementMarks, placementMarks, ← h.keyword?, ← h.isText, ← htransition]
  refine List.rel_append (List.rel_append (List.rel_append ?_ ?_) ?_) ?_
  · split
    · exact .nil
    · exact forall₂_map_hits h _ fun _ _ hhit => h.markSegment hhit.whole _
  · split
    · exact .nil
    · refine forall₂_map_hits h _ fun hit hit' hhit => ?_
      rw [hhit.text_whole]
      exact h.markSegment hhit.whole _
  · split
    · exact .nil
    · exact forall₂_map_hits h _ fun _ _ hhit => h.markSegment hhit.captured _
  · split
    · exact .nil
    · exact forall₂_map_hits h _ fun _ _ hhit => h.markSegment hhit.captured _

theorem isDangling_eq {s s' word word' : List Char} (hword : Reworded word word')
    {behind behind' : List Segment}
    (hbehind : List.Forall₂ (Segment.Alike s s') behind behind') :
    isDangling word behind = isDangling word' behind' := by
  cases hword with
  | literal u v _ _ => rw [isDangling_append_quote, isDangling_append_quote]
  | refl =>
    unfold isDangling
    cases hbehind with
    | nil => rfl
    | cons hnext _ => simp only [hnext.text.eq_of_looksInFront looksInFront_isClauseWord]

theorem forall₂_negationMarksIn (h : line.Alike line') {ws ws' : List Segment}
    (hws : List.Forall₂ (Segment.Alike line.raw line'.raw) ws ws') :
    List.Forall₂ Mark.Alike (negationMarksIn line ws) (negationMarksIn line' ws') := by
  induction hws with
  | nil => exact .nil
  | cons hword hbehind ih =>
    rw [negationMarksIn, negationMarksIn, ← isDangling_eq hword.text hbehind]
    refine List.rel_append ?_ ih
    split
    next hdangling =>
      have hstop := hword.front _ (front_of_isDangling hdangling)
      exact .cons (h.mark hword.start hstop _) .nil
    next => exact .nil

end

end Gamebook
