import Gamebook.Proofs.Place.Report
import Gamebook.Proofs.Simulation.Report
import Gamebook.Proofs.Soundness.Destination

/-!
Gamebook.Proofs.Soundness.Transition — a jump or an option that is lost is lost with an error.

Where a TO or IS line has no destination, the reader puts a broken line in its place and goes on. The
checks do not look for destinations. They ask the rule of the keyword, which wants a page at one
place of the line. So a line without a destination has no argument at that place, or it has one that
is no page, and either is an error.

`reported_of_broken` says so for every text that can be read, accepted or not.
-/

namespace Gamebook

open Text

/-! ## The argument that leads somewhere -/

/-- What the checks accept as a page leads somewhere. -/
theorem Token.destination?_of_accepts_page {w : List Char} (h : ArgKind.page.accepts w = true) :
    (ofWord w).destination? ≠ none := by
  rcases ofWord_of_accepts_page h with ⟨name, -, -, -, hw⟩ | ⟨t, -, hw⟩
  · rw [hw]
    exact Option.some_ne_none _
  · rw [hw]
    cases t <;> exact Option.some_ne_none _

/-- The index of the argument that says where a TO or IS line leads. -/
def Keyword.destinationIndex : Keyword → Nat
  | is => 1
  | _ => 0

/-- The rule of TO and IS asks for a page there. -/
theorem Keyword.exists_specs_of_transition {k : Keyword} (h : k = .goto ∨ k = .is) :
    ∃ specs, k.rule.arity = .fixed specs ∧ specs ≠ [] ∧
      specs[k.destinationIndex]? = some ⟨.page, true, false⟩ := by
  rcases h with rfl | rfl
  · exact ⟨_, rfl, by decide, rfl⟩
  · exact ⟨_, rfl, by decide, rfl⟩

theorem specAt?_of_getElem? {specs : List ArgSpec} {i : Nat} {spec : ArgSpec}
    (h : specs[i]? = some spec) : specAt? specs i = some spec := by
  rw [specAt?, h]

/-- A line without a destination has no page among its arguments. -/
theorem CodeLine.accepts_page_of_transition?_eq_none {line : CodeLine} {k : Keyword}
    {args : List Segment}
    (htokens : line.tokens = .keyword k :: args.map fun a => Token.ofWord a.text)
    (h : line.transition? = none) {a : Segment} (ha : a ∈ args) :
    ¬ ArgKind.page.accepts a.text = true := by
  have hnone := List.findSome?_eq_none_iff.1 (Option.map_eq_none_iff.1 h) (Token.ofWord a.text)
    (by rw [htokens]; exact List.mem_cons_of_mem _ (List.mem_map_of_mem ha))
  exact fun haccepts => Token.destination?_of_accepts_page haccepts hnone

/-! ## Broken lines -/

/-- **A line that leads nowhere is an error**, at the place where its rule asks for a page. -/
theorem exists_mem_argumentMarks (catalog : Catalog) {line : Line} {k : Keyword}
    (hlead : k = .goto ∨ k = .is)
    (h : ∀ a ∈ line.arguments k, ¬ ArgKind.page.accepts a.text = true) :
    ∃ m ∈ argumentMarks catalog line k, m.line = line ∧
      (m.cause = .missingArgument k (k.destinationIndex + 1) ∨
        m.cause = .badArgument k (k.destinationIndex + 1) .page) := by
  obtain ⟨specs, hspecs, hne, hspec⟩ := Keyword.exists_specs_of_transition hlead
  cases hget : (line.arguments k)[k.destinationIndex]? with
  | none =>
    refine ⟨_, markKeyword_mem_argumentMarks catalog hspecs hspec rfl hget, rfl, Or.inl ?_⟩
    rcases hlead with rfl | rfl <;> rfl
  | some a =>
    have haccepts := h a (List.mem_of_getElem? hget)
    exact ⟨_, markSegment_bad_mem_argumentMarks catalog hspecs hne hget
      (specAt?_of_getElem? hspec) haccepts, rfl, Or.inr rfl⟩

/-- **A jump or an option that is lost is explained.** Where a script has a broken line in the place
of a TO or IS line, the report has an error on that line, whatever the catalog: the line has no
argument at the place of the page, or one that is no page. -/
theorem reported_of_broken {text : String} {script : Script}
    (hread : Script.read text = .ok script) {page : Page} (hpage : page ∈ script.pages) {n : Nat}
    {source : String} (hbroken : Command.broken n source ∈ page.commands) {line : Line}
    (hline : line ∈ Line.ofText text.toList) (hnumber : line.number = n) {k : Keyword}
    (hk : line.keyword? = some k) (hlead : k = .goto ∨ k = .is) (catalog : Catalog) :
    Reported catalog text n .error (Cause.missingArgument k (k.destinationIndex + 1)).message ∨
      Reported catalog text n .error
        (Cause.badArgument k (k.destinationIndex + 1) .page).message := by
  obtain ⟨n', raw, hmem, rfl⟩ := Line.mem_ofText.1 hline
  obtain rfl : n' = n := hnumber
  -- The broken line was read from the line of the text that has its number.
  rw [Script.read_eq_ok hread] at hpage
  obtain ⟨l, hl, hbrokenLine, htransition⟩ :=
    (Reader.readFrom_run _ page hpage _ hbroken).exists_brokenLine
  obtain ⟨m, raw', hmem', hraw⟩ := mem_codeLines.1 hl
  obtain rfl : m = n' := by
    obtain ⟨-, rfl⟩ := CodeLine.ofRaw?_eq_some_iff.1 hraw
    exact (Command.broken.inj hbrokenLine).1
  obtain rfl : raw = raw' := Option.some.inj
    ((getElem?_of_mem_numberedLines hmem).2.symm.trans (getElem?_of_mem_numberedLines hmem').2)
  obtain ⟨body, hcode, -⟩ := CodeLine.ofRaw?_of_keyword? hk
  obtain rfl := Option.some.inj (hraw.symm.trans hcode)
  have hnone := htransition (hlead.imp (by rintro rfl; rfl) (by rintro rfl; rfl))
  obtain ⟨mark, hmark, hmarkLine, hcause⟩ := exists_mem_argumentMarks catalog hlead
    fun a ha => CodeLine.accepts_page_of_transition?_eq_none rfl hnone ha
  obtain ⟨d, hd, hdline, hseverity, hmessage⟩ :=
    exists_diagnostic_of_mem_allMarks (mem_allMarks_of_mem_argumentMarks hmem hk hmark)
  rw [hmarkLine] at hdline
  rcases hcause with hcause | hcause
  · rw [hcause] at hseverity hmessage
    exact Or.inl ⟨d, hd, hdline, hseverity, hmessage⟩
  · rw [hcause] at hseverity hmessage
    exact Or.inr ⟨d, hd, hdline, hseverity, hmessage⟩

/-! ## A text with two lost lines -/

/-- A menu with an option that leads nowhere, and a jump to something that is no page. -/
def strayText : String :=
  "DEFINE \"stray\"\nPAGE @gate\nCHOICE\nIS \"Wait\"\nTO nowhere @\nTO @gate"

/-- The script with the two broken lines. -/
def strayScript : Script :=
  ⟨"stray", ["gate"], [],
    [⟨"gate", [.choice none [], .broken 4 "IS \"Wait\"", .broken 5 "TO nowhere @",
      .goto ⟨.page "gate", [], []⟩]⟩]⟩

theorem read_strayText : Script.read strayText = .ok strayScript ∧
    Line.ofRaw 4 "IS \"Wait\"".toList ∈ Line.ofText strayText.toList ∧
      Line.ofRaw 5 "TO nowhere @".toList ∈ Line.ofText strayText.toList := by
  decide +kernel

/-- Both lost lines are explained. -/
theorem reported_of_broken_strayText : Script.read strayText = .ok strayScript ∧
    (∃ d ∈ diagnostics .empty strayText, d.line = 4 ∧ d.severity = .error) ∧
      ∃ d ∈ diagnostics .empty strayText, d.line = 5 ∧ d.severity = .error := by
  obtain ⟨hread, hfour, hfive⟩ := read_strayText
  have hpage : strayScript.pages[0] ∈ strayScript.pages := .head _
  refine ⟨hread, ?_, ?_⟩
  · rcases reported_of_broken hread hpage (.tail _ (.head _)) hfour rfl (k := .is)
      (by decide +kernel) (Or.inr rfl) .empty with ⟨d, hd, hline, hs, -⟩ | ⟨d, hd, hline, hs, -⟩
    all_goals exact ⟨d, hd, hline, hs⟩
  · rcases reported_of_broken hread hpage (.tail _ (.tail _ (.head _))) hfive rfl (k := .goto)
      (by decide +kernel) (Or.inl rfl) .empty with ⟨d, hd, hline, hs, -⟩ | ⟨d, hd, hline, hs, -⟩
    all_goals exact ⟨d, hd, hline, hs⟩

end Gamebook
