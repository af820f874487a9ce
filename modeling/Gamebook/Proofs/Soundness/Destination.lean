import Gamebook.Proofs.Check.Accepted
import Gamebook.Proofs.Script.Reader

/-!
Gamebook.Proofs.Soundness.Destination — an accepted text leads nowhere that is not there.

Reader and checks come to a destination by different ways. The reader takes the first token of a
line that is a page or a meta target; the checks ask the rule of the keyword for the shape of each
argument, and look for pages in the code of the line.

1. On an accepted text the first destination of a TO or IS line is the argument that the rule asks
   to be a page (`Accepted.findSome?_destination?`).
2. That argument shows in the code of its line, so the page is declared.
3. What declares a page opens one (`Accepted.page_mem_run`), because there too the checks accept
   nothing but a sigil and a whole name.

`destination_mem_pages` puts these together.
-/

namespace Gamebook

open Text

namespace Accepted

variable {catalog : Catalog} {text : String} {n : Nat} {raw : List Char}

/-- **The first destination of a line** is what the rule of its keyword asks to be a page. -/
theorem findSome?_destination? (h : Accepted catalog text)
    (hmem : (n, raw) ∈ numberedLines text.toList) {k : Keyword}
    (hk : (Line.ofRaw n raw).keyword? = some k) (hgoto : k = .goto ∨ k = .is) :
    ∃ a ∈ (Line.ofRaw n raw).arguments k, ArgKind.page.accepts a.text = true ∧
      (((Line.ofRaw n raw).arguments k).map fun a => Token.ofWord a.text).findSome?
        Token.destination? = (Token.ofWord a.text).destination? := by
  have hpage : ∀ {a : Segment} {ts : List Token}, ArgKind.page.accepts a.text = true →
      (Token.ofWord a.text :: ts).findSome? Token.destination? =
        (Token.ofWord a.text).destination? := by
    intro a ts ha
    rcases Token.ofWord_of_accepts_page ha with ⟨name, -, -, -, hw⟩ | ⟨t, -, hw⟩
    · rw [hw]; rfl
    · rw [hw]; cases t <;> rfl
  rcases hgoto with rfl | rfl
  · obtain ⟨a, ha⟩ := h.exists_argument hmem hk rfl (i := 0) rfl rfl
    obtain ⟨spec, hspec, haccepts⟩ := h.exists_spec hmem hk rfl (by decide) ha
    obtain rfl := Option.some.inj hspec
    refine ⟨a, List.mem_of_getElem? ha, haccepts, ?_⟩
    rw [← List.head?_eq_getElem?] at ha
    obtain ⟨rest, hrest⟩ := List.head?_eq_some_iff.1 ha
    rw [hrest]
    exact hpage haccepts
  · obtain ⟨label, hlabel⟩ := h.exists_argument hmem hk rfl (i := 0) rfl rfl
    obtain ⟨a, ha⟩ := h.exists_argument hmem hk rfl (i := 1) rfl rfl
    obtain ⟨spec₀, hspec₀, hlabelAccepts⟩ := h.exists_spec hmem hk rfl (by decide) hlabel
    obtain ⟨spec, hspec, haccepts⟩ := h.exists_spec hmem hk rfl (by decide) ha
    obtain rfl := Option.some.inj hspec₀
    obtain rfl := Option.some.inj hspec
    refine ⟨a, List.mem_of_getElem? ha, haccepts, ?_⟩
    rw [← List.head?_eq_getElem?] at hlabel
    obtain ⟨rest, hrest⟩ := List.head?_eq_some_iff.1 hlabel
    rw [hrest, List.getElem?_cons_succ, ← List.head?_eq_getElem?] at ha
    obtain ⟨rest', hrest'⟩ := List.head?_eq_some_iff.1 ha
    rw [hrest, hrest', List.map_cons, List.findSome?_cons,
      (Token.ofWord_of_accepts_textOrSpecial hlabelAccepts).1]
    exact hpage haccepts

/-- **What declares a page opens one.** -/
theorem page_mem_run (h : Accepted catalog text) {name : String}
    (hname : name ∈ declaredNames .page (declarations (Line.ofText text.toList))) :
    name ∈ (Reader.run (codeLines text.toList)).map Page.name := by
  obtain ⟨line, hline, d, hd, hkind, rfl⟩ := mem_declaredNames.1 hname
  obtain ⟨n, raw, hmem, rfl⟩ := Line.mem_ofText.1 hline
  obtain ⟨hk, a, -, hhead, declared, hdeclared, hdname⟩ := exists_of_mem_declarations hd
  rw [hkind] at hk hdeclared
  obtain ⟨rest, hrest⟩ := List.head?_eq_some_iff.1 (hhead hkind)
  have ha : ((Line.ofRaw n raw).arguments .page)[0]? = some a := by rw [hrest]; rfl
  obtain ⟨spec, hspec, haccepts⟩ := h.exists_spec hmem hk rfl (by decide) ha
  obtain rfl := Option.some.inj hspec
  obtain ⟨source, hcode, -⟩ := CodeLine.ofRaw?_of_keyword? hk
  rcases Token.ofWord_of_accepts_page haccepts with ⟨word, htext, -, hword, htoken⟩ | ⟨t, htext, -⟩
  · -- The whole word is the name that is declared and the name that is opened.
    have hrun : wordRun word = word := by
      rw [wordRun, List.takeWhile_eq_self_iff]
      exact hword
    have hsame : declared = word := by
      rw [htext, declaredName?, hrun] at hdeclared
      split at hdeclared
      · exact (Option.some.inj hdeclared).symm
      · exact absurd hdeclared (by simp)
    have hopen : OpenPage.ofLine? ⟨n, source, .keyword .page ::
        ((Line.ofRaw n raw).arguments .page).map fun a => Token.ofWord a.text⟩ =
          some ⟨d.name, [], none⟩ := by
      rw [hrest, List.map_cons, htoken, hdname, hsame]
      rfl
    exact Reader.name_mem_run (mem_codeLines.2 ⟨n, raw, hmem, hcode⟩) rfl hopen
  · rw [htext] at hdeclared
    exact absurd hdeclared (by simp [declaredName?, wordRun, show isWordChar '^' = false by decide])

end Accepted

/-- **No jump and no option of an accepted text leads to a page that is not there.** -/
theorem destination_mem_pages {catalog : Catalog} {text : String} {script : Script}
    (haccepted : Accepted catalog text) (hread : Script.read text = .ok script) :
    ∀ page ∈ script.pages, ∀ command ∈ page.commands, ∀ t ∈ command.transitions,
      ∀ name, t.destination = .page name → name ∈ script.pages.map Page.name := by
  intro page hpage command hcommand t ht name hname
  rw [Script.read_eq_ok hread] at hpage ⊢
  obtain ⟨line, hline, hopens, htransition⟩ :=
    (Reader.readFrom_run _ page hpage command hcommand).exists_line ht
  obtain ⟨n, raw, hmem, hraw⟩ := mem_codeLines.1 hline
  obtain ⟨k, hgoto, hopens⟩ : ∃ k : Keyword, (k = .goto ∨ k = .is) ∧ line.opensWith k = true := by
    rcases hopens with h | h
    · exact ⟨.goto, Or.inl rfl, h⟩
    · exact ⟨.is, Or.inr rfl, h⟩
  obtain ⟨destination, hfirst, rfl⟩ := Option.map_eq_some_iff.1 htransition
  rcases Line.keyword?_of_opensWith hraw hopens with hk | ⟨-, htokens⟩
  · obtain ⟨a, ha, haccepts, hdestination⟩ := haccepted.findSome?_destination? hmem hk hgoto
    obtain ⟨source, hcode, -⟩ := CodeLine.ofRaw?_of_keyword? hk
    obtain rfl := Option.some.inj (hraw.symm.trans hcode)
    rw [List.findSome?_cons] at hfirst
    simp only [Token.destination?] at hfirst
    rw [hdestination] at hfirst
    rcases Token.ofWord_of_accepts_page haccepts with ⟨word, htext, hne, hword, htoken⟩ | ⟨t, -, htoken⟩
    · rw [htoken] at hfirst
      obtain rfl := Option.some.inj hfirst
      obtain rfl : String.ofList word = name := by simpa using hname
      have hquote : '"' ∉ a.text := by
        rw [htext, List.mem_cons, not_or]
        refine ⟨by decide, fun hm => ?_⟩
        exact absurd (hword _ hm) (by decide)
      have hshows : (Line.ofRaw n raw).Shows a.text :=
        Line.shows_of_mem_arguments hk ha (x := []) (y := []) (by simp) rfl hquote (by simp)
      rw [htext] at hshows
      refine haccepted.page_mem_run (haccepted.page_of_shows hmem (Line.isCode_of_keyword? hk) ?_
        hne hword hshows)
      rcases hgoto with rfl | rfl <;> rw [hk] <;> decide
    · rw [htoken] at hfirst
      cases t <;> (obtain rfl := Option.some.inj hfirst; exact absurd hname (by simp))
  · rw [htokens] at hfirst
    exact absurd hfirst (by simp [Token.destination?])

/-! ## A text with two pages -/

/-- A walk from a gate to a hall and back. -/
def walkText : String :=
  "DEFINE \"walk\"\nPAGE @gate\nCHOICE\nIS \"Go in\" @hall\nPAGE @hall\nTO @gate"

/-- The script of the walk. -/
def walkScript : Script :=
  ⟨"walk", ["gate", "hall"], [],
    [⟨"gate", [.choice none [⟨some "Go in", false, false, ⟨.page "hall", [], []⟩⟩]]⟩,
      ⟨"hall", [.goto ⟨.page "gate", [], []⟩]⟩]⟩

theorem read_walkText : Accepted .empty walkText ∧ Script.read walkText = .ok walkScript := by
  unfold Accepted
  decide +kernel

/-- On the walk, the option leads to the hall and the jump to the gate. -/
theorem destination_mem_pages_walkText : Accepted .empty walkText ∧
    Script.read walkText = .ok walkScript ∧ "hall" ∈ walkScript.pages.map Page.name ∧
      "gate" ∈ walkScript.pages.map Page.name := by
  obtain ⟨haccepted, hread⟩ := read_walkText
  have hpages := destination_mem_pages haccepted hread
  refine ⟨haccepted, hread, ?_, ?_⟩
  · exact hpages _ (.head _) _ (.head _) _ (.head _) "hall" rfl
  · exact hpages _ (.tail _ (.head _)) _ (.head _) _ (.head _) "gate" rfl

end Gamebook
