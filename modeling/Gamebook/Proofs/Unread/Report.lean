import Gamebook.Check.Report
import Gamebook.Proofs.Check.Line
import Gamebook.Proofs.Unread.Mark

/-!
Gamebook.Proofs.Unread.Report — what is not code is not looked at.

Two texts whose lines are alike, one by one, are checked in step: they declare the same names, the
walk down their lines is in the same state, and it puts alike marks on alike lines
(`forall₂_marksFrom`). So they have the same findings (`findings_eq`). A text and its edit are such
texts, and so edits of messages, comments and quoted texts, one after the other, do not change what
is said about a text: not one message, not one column (`diagnostics_eq_of_edits`).
-/

namespace Gamebook

open Text

/-! ## Declarations -/

/-- The declarations are of the same name, and marks on them are alike. -/
structure Declaration.Alike (d d' : Declaration) : Prop where
  /-- What is declared. -/
  kind : d.kind = d'.kind
  /-- The names. -/
  name : d.name = d'.name
  /-- The places. -/
  mark : ∀ cause, Mark.Alike ⟨d.line, d.span, cause⟩ ⟨d'.line, d'.span, cause⟩

theorem optionRel_ofArgument? {line line' : Line} (h : line.Alike line') (kind : NameKind)
    {a a' : Segment} (ha : a.Alike line.raw line'.raw a') :
    Option.Rel Declaration.Alike (Declaration.ofArgument? line kind a)
      (Declaration.ofArgument? line' kind a') := by
  rw [Declaration.ofArgument?, Declaration.ofArgument?,
    ← ha.text.eq_of_looksInFront (looksInFront_declaredName? kind)]
  cases hname : declaredName? kind a.text with
  | none => exact .none
  | some name =>
    have hsize : kind.sigil.utf8Size = 1 := by cases kind <;> rfl
    have hstop := ha.behind_name hsize (front_of_declaredName? hname)
    exact .some ⟨rfl, rfl, h.mark ha.start hstop⟩

theorem forall₂_declarations {lines lines' : List Line}
    (h : List.Forall₂ Line.Alike lines lines') :
    List.Forall₂ Declaration.Alike (declarations lines) (declarations lines') := by
  refine List.rel_flatMap h fun line line' hline => ?_
  rw [Line.declarations, Line.declarations, ← hline.keyword?]
  split
  next hk =>
    exact List.rel_filterMap (fun _ _ ha => optionRel_ofArgument? hline .page ha)
      (List.forall₂_take 1 (hline.arguments hk))
  next hk =>
    exact List.rel_filterMap (fun _ _ ha => optionRel_ofArgument? hline .flag ha)
      (hline.arguments hk)
  next => exact .nil

theorem declaredNames_eq_of_alike (kind : NameKind) {ds ds' : List Declaration}
    (h : List.Forall₂ Declaration.Alike ds ds') :
    declaredNames kind ds = declaredNames kind ds' := by
  induction h with
  | nil => rfl
  | cons hd _ ih =>
    rw [declaredNames, declaredNames] at ih ⊢
    rw [List.filterMap_cons, List.filterMap_cons, ih, hd.kind, hd.name]

theorem ofLines_eq (catalog : Catalog) {lines lines' : List Line}
    (h : List.Forall₂ Line.Alike lines lines') :
    Declared.ofLines catalog lines = Declared.ofLines catalog lines' := by
  have hds := forall₂_declarations h
  rw [Declared.ofLines, Declared.ofLines, declaredNames_eq_of_alike .page hds,
    declaredNames_eq_of_alike .flag hds]

theorem forall₂_duplicateMarks {ds ds' : List Declaration}
    (h : List.Forall₂ Declaration.Alike ds ds') (seen : List (NameKind × String)) :
    List.Forall₂ Mark.Alike (duplicateMarks seen ds) (duplicateMarks seen ds') := by
  induction h generalizing seen with
  | nil => exact .nil
  | cons hd _ ih =>
    rw [duplicateMarks, duplicateMarks, ← hd.kind, ← hd.name]
    split
    · exact .cons (hd.mark _) (ih _)
    · exact ih _

/-! ## Headers -/

theorem headerFindings_eq {lines lines' : List Line} (h : List.Forall₂ Line.Alike lines lines') :
    headerFindings lines = headerFindings lines' := by
  cases h with
  | nil => rfl
  | cons hline _ => rw [headerFindings, headerFindings, hline.startsWith_define]

theorem forall₂_repeatedHeaderMarks {lines lines' : List Line}
    (h : List.Forall₂ Line.Alike lines lines') :
    List.Forall₂ Mark.Alike (repeatedHeaderMarks lines) (repeatedHeaderMarks lines') := by
  have hheaders : List.Forall₂ Line.Alike
      (lines.filter fun line => line.keyword? = some .define)
      (lines'.filter fun line => line.keyword? = some .define) := by
    refine List.rel_filter (fun line line' hline => ?_) h
    simp only [hline.keyword?]
  have hkeyword : ∀ line ∈ lines.filter fun line => line.keyword? = some .define,
      line.keyword? = some .define :=
    fun line hline => of_decide_eq_true (List.mem_filter.1 hline).2
  exact List.rel_map (fun line line' hline => hline.2.markKeyword hline.1 _)
    (List.forall₂_drop 1 ((List.forall₂_and_left _ _).2 ⟨hkeyword, hheaders⟩))

/-! ## The walk -/

/-- The last lines of code have the same keyword, and the same menu is open. -/
structure CheckState.Alike (s s' : CheckState) : Prop where
  /-- The last lines of code. -/
  previous : s.previous.map Line.keyword? = s'.previous.map Line.keyword?
  /-- The open menus. -/
  menu : s.menu = s'.menu

variable {s s' : CheckState} {line line' : Line}

/-- **One step** from alike states over alike lines ends in alike states. -/
theorem CheckState.Alike.next (hs : s.Alike s') (h : line.Alike line') :
    (s.next line).Alike (s'.next line') := by
  rw [CheckState.next, CheckState.next, ← h.isCode, ← hs.menu, MenuState.next_eq h]
  split
  · exact ⟨congrArg some h.keyword?, rfl⟩
  · exact hs

/-- **One step** from alike states puts alike marks on alike lines. -/
theorem forall₂_lineMarks {d : Declared} (hcatalog : d.catalog.NoPresets) (hs : s.Alike s')
    (h : line.Alike line') :
    List.Forall₂ Mark.Alike (lineMarks d s line) (lineMarks d s' line') := by
  have hkeyword : List.Forall₂ Mark.Alike (keywordMarks d s line) (keywordMarks d s' line') := by
    rw [keywordMarks, keywordMarks, ← h.keyword?, ← hs.menu]
    cases hk : line.keyword? with
    | none => exact .nil
    | some k =>
      exact List.rel_append (List.rel_append (forall₂_previousMarks h hk hs.previous)
        (forall₂_argumentMarks hcatalog h hk)) (forall₂_menuMarks h hk s.menu)
  have hcode : List.Forall₂ Mark.Alike (codeMarks d line) (codeMarks d line') :=
    List.rel_append (List.rel_append (List.rel_append (forall₂_referenceMarks d h)
      (forall₂_joinMarks h)) (forall₂_placementMarks h)) (forall₂_negationMarksIn h h.words)
  rw [lineMarks, lineMarks, ← h.isCode]
  split
  · exact List.rel_append hkeyword hcode
  · exact .nil

/-- **The walk** puts alike marks on alike lines. -/
theorem forall₂_marksFrom {d : Declared} (hcatalog : d.catalog.NoPresets)
    {lines lines' : List Line} (h : List.Forall₂ Line.Alike lines lines') (hs : s.Alike s') :
    List.Forall₂ Mark.Alike (marksFrom d s lines) (marksFrom d s' lines') := by
  induction h generalizing s s' with
  | nil => exact .nil
  | cons hline _ ih =>
    rw [marksFrom, marksFrom]
    exact List.rel_append (forall₂_lineMarks hcatalog hs hline) (ih (hs.next hline))

/-- **Texts with alike lines have the same findings.** -/
theorem findings_eq {catalog : Catalog} (hcatalog : catalog.NoPresets) {text text' : String}
    (h : List.Forall₂ Line.Alike (Line.ofText text.toList) (Line.ofText text'.toList)) :
    findings catalog text = findings catalog text' := by
  have hmarks : List.Forall₂ Mark.Alike (allMarks catalog (Line.ofText text.toList))
      (allMarks catalog (Line.ofText text'.toList)) := by
    rw [allMarks, allMarks, ← ofLines_eq catalog h]
    exact List.rel_append (List.rel_append (forall₂_repeatedHeaderMarks h)
      (forall₂_duplicateMarks (forall₂_declarations h) []))
      (forall₂_marksFrom hcatalog h ⟨rfl, rfl⟩)
  rw [findings, findings, headerFindings_eq h, filterMap_finding?_eq hmarks]

/-! ## Edited texts -/

/-- Only the edited line is another one, and it looks as before. -/
theorem TextEdit.alike {text text' : String} (h : TextEdit text text') :
    List.Forall₂ Line.Alike (Line.ofText text.toList) (Line.ofText text'.toList) := by
  obtain ⟨before, raw, raw', after, hedit, hlines, hlines'⟩ := h
  have hraw : '\n' ∉ raw := by
    refine newline_notMem_of_mem_lines (s := text.toList) ?_
    rw [hlines]
    simp
  have hraw' : '\n' ∉ raw' := by
    refine newline_notMem_of_mem_lines (s := text'.toList) ?_
    rw [hlines']
    simp
  have hline : ∀ n, (Line.ofRaw n raw).Alike (Line.ofRaw n raw') := fun n =>
    hedit.chop.alike (notMem_chop '\r' hraw) (notMem_chop '\r' hraw') n
  rw [Line.ofText, Line.ofText, numberedLines, numberedLines, hlines, hlines', numberFrom_append,
    numberFrom_append, List.map_append, List.map_append]
  exact List.rel_append (List.forall₂_same.2 fun line _ => .refl line)
    (.cons (hline _) (List.forall₂_same.2 fun line _ => .refl line))

/-- **What is not code is not looked at**: edits behind the markers of text lines, in comments and
in the texts of literals leave the diagnostics as they are, in the same order and in the same
columns. -/
theorem diagnostics_eq_of_edits {catalog : Catalog} (hcatalog : catalog.NoPresets)
    {text text' : String} (h : Relation.ReflTransGen TextEdit text text') :
    diagnostics catalog text = diagnostics catalog text' := by
  induction h with
  | refl => rfl
  | tail _ hedit ih =>
    rw [ih, diagnostics, diagnostics, findings_eq hcatalog hedit.alike]

/-- A text with a message, a literal and a comment, for a catalog that lists its one command. -/
def bellText (message words comment : String) : String :=
  "DEFINE \"bell\"\nPAGE @gate\n>" ++ message ++ "\nEXEC #RING \"" ++ words ++
    "\"\nTO @gaol //" ++ comment

def bellCatalog : Catalog := ⟨[⟨"RING", [⟨"times", .text, true, []⟩]⟩]⟩

/-- Names, keywords and slashes may come in where they are not looked at. -/
theorem edits_bellText : Relation.ReflTransGen TextEdit (bellText " Hello." "two" " not yet")
    (bellText " $key @hall" "é//" " \"PAGE") := by
  have hrun : ClauseRun 0 [] [] := .blanks (by simp [AllBlank])
  have hmessage : TextEdit (bellText " Hello." "two" " not yet")
      (bellText " $key @hall" "two" " not yet") :=
    ⟨["DEFINE \"bell\"".toList, "PAGE @gate".toList], "> Hello.".toList, "> $key @hall".toList,
      ["EXEC #RING \"two\"".toList, "TO @gaol // not yet".toList],
      .of_clauseRun hrun .start _ _,
      by decide +kernel, by decide +kernel⟩
  have hliteral : TextEdit (bellText " $key @hall" "two" " not yet")
      (bellText " $key @hall" "é//" " not yet") :=
    ⟨["DEFINE \"bell\"".toList, "PAGE @gate".toList, "> $key @hall".toList],
      "EXEC #RING ".toList ++ '"' :: ("two".toList ++ '"' :: []),
      "EXEC #RING ".toList ++ '"' :: ("é//".toList ++ '"' :: []), ["TO @gaol // not yet".toList],
      .literal (by decide +kernel) (by decide) (by decide) (by decide) (by decide) rfl,
      by decide +kernel, by decide +kernel⟩
  have hcomment : TextEdit (bellText " $key @hall" "é//" " not yet")
      (bellText " $key @hall" "é//" " \"PAGE") :=
    ⟨["DEFINE \"bell\"".toList, "PAGE @gate".toList, "> $key @hall".toList,
        "EXEC #RING \"é//\"".toList], _, _, [],
      .comment (a := "TO @gaol ".toList) " not yet".toList " \"PAGE".toList (by decide +kernel)
        (by decide) (by decide),
      by decide +kernel, by decide +kernel⟩
  exact .tail (.tail (.single hmessage) hliteral) hcomment

/-- The page that is missing is reported in the same place. -/
theorem diagnostics_bellText :
    diagnostics bellCatalog (bellText " Hello." "two" " not yet") =
        diagnostics bellCatalog (bellText " $key @hall" "é//" " \"PAGE") ∧
      diagnostics bellCatalog (bellText " Hello." "two" " not yet") =
        [⟨5, 4, 9, "undefined page: gaol", .error⟩] := by
  have hcatalog : bellCatalog.NoPresets := by simp [Catalog.NoPresets, bellCatalog]
  exact ⟨diagnostics_eq_of_edits hcatalog edits_bellText, by decide +kernel⟩

end Gamebook
