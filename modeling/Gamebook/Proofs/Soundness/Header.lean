import Gamebook.Proofs.Check.Accepted
import Gamebook.Proofs.Script.Reader

/-!
Gamebook.Proofs.Soundness.Header — the header of an accepted text.

Reader and checks look for the header in four ways. The reader takes the first line whose first
token is DEFINE, wherever it stands. The checks ask the first line to start with the letters of
DEFINE, mark every further line that opens with the keyword, and want a quoted name behind it.

The letters alone are no keyword: a word may go on behind them (`Line.RunsOn`). This is the only way
in which an accepted text can be without its header.

* `Accepted.starts_define`: the first line starts with the letters.
* `Accepted.keyword?_ne_define`: no other line opens with the keyword.
* `Accepted.header_of_keyword?`: where the first line opens with the keyword, the script has the
  name that stands behind it.
* `hasHeader_iff`: an accepted text has its header exactly when no word goes on behind the letters.
-/

namespace Gamebook

open Text

/-! ## Success -/

theorem Diagnostic.mem_sort {d : Diagnostic} {ds : List Diagnostic} : d ∈ sort ds ↔ d ∈ ds :=
  List.mem_mergeSort

/-- Sorting drops no diagnostic, so a report is a success when nothing in it is an error. -/
theorem Report.isSuccess_iff {catalog : Catalog} {text : String} :
    (ofText catalog text).isSuccess = true ↔ Accepted catalog text := by
  rw [isSuccess, beq_iff_eq, count, Diagnostic.count, List.countP_eq_zero]
  simp only [ofText, Diagnostic.mem_sort, decide_eq_true_eq]
  rfl

/-! ## Headers -/

/-- A word goes on behind the letters of DEFINE, with which the line starts. -/
def Line.RunsOn (line : Line) : Prop :=
  ∃ c r, line.trimmed = Keyword.define.letters ++ c :: r ∧ isBlank c = false

/-- The line `first` is the header of the text and of the script. -/
structure IsHeader (text : String) (first : Line) (script : Script) : Prop where
  /-- The text reads as the script. -/
  read : Script.read text = .ok script
  /-- It is the first line, and the only one that opens with DEFINE. -/
  unique : ∃ rest, Line.ofText text.toList = first :: rest ∧ first.keyword? = some .define ∧
    ∀ line ∈ rest, line.keyword? ≠ some .define
  /-- Its first argument is the name of the script in quotation marks. -/
  name : ∃ arg ∈ (first.arguments .define).head?, arg.text = '"' :: (script.name.toList ++ ['"'])

/-- Some line is the header of the text. -/
def HasHeader (text : String) : Prop := ∃ first script, IsHeader text first script

/-- The keyword is the letters, with no word that goes on behind them. -/
theorem Line.keyword?_eq_define_iff {line : Line} :
    line.keyword? = some .define ↔
      startsWith Keyword.define.letters line.trimmed = true ∧ ¬ line.RunsOn := by
  rw [Line.keyword?, Keyword.leading?_eq_some_iff, Keyword.opens_iff, startsWith_iff]
  constructor
  · rintro ⟨r, hr, hstop⟩
    refine ⟨⟨r, hr⟩, ?_⟩
    rintro ⟨c, u, hu, hc⟩
    rw [hr, List.append_cancel_left_eq] at hu
    rw [hstop c (by rw [hu]; rfl)] at hc
    exact absurd hc (by decide)
  · rintro ⟨⟨r, hr⟩, hruns⟩
    refine ⟨r, hr, fun c hc => ?_⟩
    obtain ⟨u, rfl⟩ := List.head?_eq_some_iff.1 hc
    by_contra hblank
    exact hruns ⟨c, u, hr, (Bool.not_eq_true _).mp hblank⟩

/-- A text has a first line. -/
theorem exists_lines_eq_cons (text : List Char) :
    ∃ raw raws, numberedLines text = (1, raw) :: numberFrom 2 raws ∧
      Line.ofText text = Line.ofRaw 1 raw :: (numberFrom 2 raws).map fun (n, r) => .ofRaw n r := by
  obtain ⟨raw, raws, hlines⟩ := List.exists_cons_of_ne_nil (lines_ne_nil text)
  have hnumbered : numberedLines text = (1, raw) :: numberFrom 2 raws := by
    rw [numberedLines, hlines, numberFrom]
  exact ⟨raw, raws, hnumbered, by rw [Line.ofText, hnumbered]; rfl⟩

/-- The reader takes the name of the script from the first line that opens with DEFINE. -/
theorem Script.read_eq_of_cons {text : String} {line : CodeLine} {rest : List CodeLine}
    (hlines : codeLines text.toList = line :: rest) (h : line.opensWith .define = true) :
    ∃ script, Script.read text = .ok script ∧ script.name = line.text?.getD "" := by
  have hfind : (line :: rest).find? (fun line => line.opensWith .define) = some line :=
    List.find?_cons_of_pos h
  have hread : Script.read text =
      .ok ⟨line.text?.getD "", (mentionedNames (line :: rest)).pages,
        (mentionedNames (line :: rest)).flags, Reader.run (line :: rest)⟩ := by
    rw [Script.read]
    simp only [hlines, hfind]
  exact ⟨_, hread, rfl⟩

namespace Accepted

variable {catalog : Catalog} {text : String} {raw : List Char} {first : Line} {rest : List Line}

/-- **An accepted text starts with the letters of DEFINE.** -/
theorem starts_define (h : Accepted catalog text)
    (hlines : Line.ofText text.toList = first :: rest) :
    startsWith Keyword.define.letters first.trimmed = true := by
  by_contra hstarts
  have hfinding : (⟨1, ⟨1, 2⟩, .noHeader⟩ : Finding) ∈ findings catalog text := by
    refine mem_findings.2 (Or.inl ?_)
    rw [hlines, headerFindings, if_neg hstarts]
    exact List.mem_singleton_self _
  exact h _ (List.mem_map_of_mem hfinding) rfl

/-- **Where the first line of an accepted text opens with DEFINE, no other line does.** -/
theorem keyword?_ne_define (h : Accepted catalog text)
    (hlines : Line.ofText text.toList = first :: rest) (hfirst : first.keyword? = some .define) :
    ∀ line ∈ rest, line.keyword? ≠ some .define := by
  intro line hline hk
  have hmark : ⟨line, line.keywordSpan .define, .repeatedHeader⟩ ∈
      allMarks catalog (Line.ofText text.toList) := by
    refine List.mem_append_left _ (List.mem_append_left _ ?_)
    rw [hlines, repeatedHeaderMarks, List.filter_cons_of_pos (by simpa using hfirst),
      List.drop_succ_cons]
    exact List.mem_map_of_mem (List.mem_filter.2 ⟨hline, by simpa using hk⟩)
  exact h.severity_ne hmark rfl

/-- **The name behind DEFINE is the name of the script.** -/
theorem header_of_keyword? (h : Accepted catalog text)
    (hlines : Line.ofText text.toList = first :: rest) (hfirst : first.keyword? = some .define) :
    HasHeader text := by
  have hrest := h.keyword?_ne_define hlines hfirst
  obtain ⟨raw, raws, hnumbered, hofText⟩ := exists_lines_eq_cons text.toList
  obtain ⟨rfl, -⟩ := List.cons.inj (hlines.symm.trans hofText)
  have hmem : (1, raw) ∈ numberedLines text.toList := by
    rw [hnumbered]
    exact List.mem_cons_self
  -- The name is there, and it is a text in quotation marks.
  obtain ⟨arg, harg⟩ := h.exists_argument hmem hfirst rfl (i := 0) rfl rfl
  obtain ⟨spec, hspec, haccepts⟩ := h.exists_spec hmem hfirst rfl (by decide) harg
  obtain rfl := Option.some.inj hspec
  obtain ⟨name, hname⟩ : ∃ name, arg.text = '"' :: (name ++ ['"']) := by
    simp only [ArgKind.accepts] at haccepts
    split at haccepts
    next quoted htext =>
      rw [Bool.and_eq_true, beq_iff_eq] at haccepts
      obtain ⟨name, rfl⟩ := List.getLast?_eq_some_iff.1 haccepts.1
      exact ⟨name, htext⟩
    next => exact absurd haccepts (by decide)
  -- The reader sees the same keyword and the same arguments.
  obtain ⟨source, hcode, -⟩ := CodeLine.ofRaw?_of_keyword? hfirst
  have hcodeLines := List.filterMap_cons_some (l := numberFrom 2 raws)
    (f := fun (n, raw) => CodeLine.ofRaw? n raw) (a := (1, raw)) hcode
  rw [← hnumbered] at hcodeLines
  obtain ⟨script, hread, hscript⟩ := Script.read_eq_of_cons hcodeLines rfl
  rw [← List.head?_eq_getElem?] at harg
  obtain ⟨args, hargs⟩ := List.head?_eq_some_iff.1 harg
  have htext : script.name = String.ofList name := by
    rw [hscript, hargs, List.map_cons, hname]
    show String.ofList (chop '"' (name ++ ['"'])) = _
    rw [chop_concat]
  refine ⟨Line.ofRaw 1 raw, script, hread, ⟨rest, hlines, hfirst, hrest⟩, arg, harg, ?_⟩
  rw [htext, String.toList_ofList, hname]

end Accepted

/-- **A text without errors has its header exactly when no word goes on behind the letters of
DEFINE.** -/
theorem hasHeader_iff {catalog : Catalog} {text : String}
    (hsuccess : (Report.ofText catalog text).isSuccess = true) :
    HasHeader text ↔ ∀ first ∈ (Line.ofText text.toList).head?, ¬ first.RunsOn := by
  have haccepted := Report.isSuccess_iff.1 hsuccess
  constructor
  · rintro ⟨line, script, hheader⟩ first hfirst
    obtain ⟨rest, hlines, hk, -⟩ := hheader.unique
    obtain rfl : line = first := by rw [hlines] at hfirst; simpa using hfirst
    exact (Line.keyword?_eq_define_iff.1 hk).2
  · intro hruns
    obtain ⟨raw, raws, -, hlines⟩ := exists_lines_eq_cons text.toList
    refine haccepted.header_of_keyword? hlines (Line.keyword?_eq_define_iff.2 ⟨?_, ?_⟩)
    · exact haccepted.starts_define hlines
    · exact hruns _ (by rw [hlines]; rfl)

/-! ## A text without a header -/

/-- A text of one word, which starts with the letters of DEFINE. -/
def definedText : String := "DEFINED"

theorem isSuccess_definedText : (Report.ofText .empty definedText).isSuccess = true := by
  decide +kernel

theorem read_definedText : Script.read definedText = .error .missingHeader := by decide +kernel

theorem not_hasHeader_definedText : ¬ HasHeader definedText := by
  rintro ⟨first, script, hheader⟩
  have hread := hheader.read
  rw [read_definedText] at hread
  exact absurd hread (by simp)

/-- **There is no error in the text, and it cannot be read.** -/
theorem missingHeader_definedText :
    (Report.ofText .empty definedText).isSuccess = true ∧
      Script.read definedText = .error .missingHeader ∧ ¬ HasHeader definedText :=
  ⟨isSuccess_definedText, read_definedText, not_hasHeader_definedText⟩

/-- A text with a header and a page. -/
def titledText : String := "DEFINE \"title\"\nPAGE @gate\nRETURN"

theorem isSuccess_titledText : (Report.ofText .empty titledText).isSuccess = true := by
  decide +kernel

theorem not_runsOn_titledText :
    ∀ first ∈ (Line.ofText titledText.toList).head?, ¬ first.RunsOn := by
  intro first hfirst
  obtain rfl : Line.ofRaw 1 "DEFINE \"title\"".toList = first := Option.some.inj hfirst
  exact (Line.keyword?_eq_define_iff.1 (by decide)).2

/-- The text with the header has it; in the other one a word goes on behind the letters. -/
theorem hasHeader_titledText :
    (Report.ofText .empty titledText).isSuccess = true ∧ HasHeader titledText ∧
      ¬ ∀ first ∈ (Line.ofText definedText.toList).head?, ¬ first.RunsOn := by
  refine ⟨isSuccess_titledText, (hasHeader_iff isSuccess_titledText).2 not_runsOn_titledText, ?_⟩
  rw [← hasHeader_iff isSuccess_definedText]
  exact not_hasHeader_definedText

end Gamebook
