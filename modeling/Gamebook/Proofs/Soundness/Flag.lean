import Gamebook.Proofs.Check.Accepted
import Gamebook.Proofs.Script.Guard
import Gamebook.Proofs.Soundness.Destination

/-!
Gamebook.Proofs.Soundness.Flag — which flags of an accepted text are declared.

The reader takes whatever stands between the commas of a clause for a flag. The checks look for `$`
and a name in the code of a line. The two agree on flags that are written plainly
(`Accepted.flag_of_isPlainFlag`), and on no others: what is written without `$`, with a character
that no name has, or inside quotation marks, is a flag of the script that no check sees.

So the flags of an accepted script are declared exactly when those are that are written in such a
loose way (`clauseFlags_declared_iff`). `key_notMem_declaredNames` is a script with one that is not.
-/

namespace Gamebook

open Text

namespace Accepted

variable {catalog : Catalog} {text : String} {n : Nat} {raw : List Char} {line : CodeLine}

/-! ## Flags that are written plainly -/

/-- On a text line, what stands in a clause shows. -/
theorem shows_of_textLine {l : Layout} (hl : layout? (lineBody raw) = some l) {w x piece y : List Char}
    (hw : w ∈ l.clauses.map Segment.text) (htext : w = x ++ piece ++ y)
    (hy : ∀ c ∈ y.head?, isWordChar c = false) :
    (Line.ofRaw n raw).keyword? = none ∧ (Line.ofRaw n raw).Shows piece := by
  obtain ⟨l', hl', hclauses⟩ := Line.exists_layout?_of_lineBody (n := n) hl
  rw [← hclauses] at hw
  obtain ⟨v, hv, rfl⟩ := List.mem_map.1 hw
  refine ⟨?_, Line.shows_of_mem_clauses hl' hv htext hy⟩
  cases hk : (Line.ofRaw n raw).keyword? with
  | none => rfl
  | some k =>
    rw [Line.layout?_raw_of_keyword? hk] at hl'
    exact absurd hl' (by simp)

/-- **A flag that is written plainly is declared.** -/
theorem flag_of_isPlainFlag (h : Accepted catalog text)
    (hmem : (n, raw) ∈ numberedLines text.toList) (hline : CodeLine.ofRaw? n raw = some line)
    (hkind : layout? line.source ≠ none ∨ ∃ k, k ≠ .flag ∧ (Line.ofRaw n raw).keyword? = some k)
    {w front piece : List Char} (hw : w ∈ line.clauseWords) (hlists : ListsFlag w front piece)
    (hplain : IsPlainFlag front piece) :
    flagOf piece ∈ declaredNames .flag (declarations (Line.ofText text.toList)) := by
  obtain ⟨k, a, b, hfront, hword, -, -, -, hb⟩ := hlists
  obtain ⟨hquoted, name, rfl, hne, hname⟩ := hplain
  have hstop : ∀ c ∈ b.head?, isWordChar c = false := by
    intro c hc
    rw [hb c hc]
    decide
  have hquote : '"' ∉ '$' :: name := by
    rw [List.mem_cons, not_or]
    refine ⟨by decide, fun hm => ?_⟩
    exact absurd (hname _ hm) (by decide)
  have hcode : (Line.ofRaw n raw).isCode = true :=
    Line.isCode_iff.2 (CodeLine.ofRaw?_eq_some_iff.1 hline).1
  obtain ⟨-, rfl⟩ := CodeLine.ofRaw?_eq_some_iff.1 hline
  rw [flagOf_plain]
  unfold CodeLine.clauseWords at hw
  cases hl : layout? (lineBody raw) with
  | some l =>
    simp only [hl] at hw
    obtain ⟨hk, hshows⟩ := shows_of_textLine hl hw hword hstop
    exact h.flag_of_shows hmem hcode (by rw [hk]; simp) hne hname hshows
  | none =>
    simp only [hl] at hw
    obtain ⟨j, hj, hk⟩ := hkind.resolve_left (fun hsome => hsome hl)
    obtain ⟨source, hsource, hwords⟩ := CodeLine.ofRaw?_of_keyword? hk
    obtain ⟨rfl, -⟩ := CodeLine.mk.inj (Option.some.inj (hline.symm.trans hsource)).symm |>.2
    rw [hwords] at hw
    rcases List.mem_cons.1 hw with rfl | hw
    · -- No keyword has a colon.
      have hcolon : ':' ∈ j.letters := by
        rw [hword, hfront, ClauseKind.opening]
        simp
      exact absurd hcolon (j.notMem_letters (by decide))
    · obtain ⟨arg, harg, rfl⟩ := List.mem_map.1 hw
      have hshows := Line.shows_of_mem_arguments hk harg hword hquoted hquote hstop
      refine h.flag_of_shows hmem hcode ?_ hne hname hshows
      rw [hk]
      simpa using hj

end Accepted

/-! ## Where the flags of a script come from -/

theorem Token.mem_guards_of_guard? {t : Token} {g : Guard} (h : t.guard? = some g) :
    g ∈ t.guards := by
  cases t <;> simp_all [Token.guard?, Token.guards]

theorem CodeLine.mem_guards_of_transition? {line : CodeLine} {t : Transition}
    (h : line.transition? = some t) {f : String} (hf : f ∈ t.clauseFlags) :
    ∃ c, Guard.clause c ∈ line.tokens.filterMap Token.guard? ∧ f ∈ c.flags := by
  obtain ⟨destination, -, rfl⟩ := Option.map_eq_some_iff.1 h
  exact exists_clause_of_mem_readGuards hf

/-- **Each flag of a script stands in a clause** of a text line, or of a TO or IS line. -/
theorem exists_clauseWord_of_mem_clauseFlags {lines : List CodeLine} {c : Command}
    (h : c.ReadFrom lines) {f : String} (hf : f ∈ c.clauseFlags) :
    ∃ line ∈ lines, ((∃ kind guards text, line.tokens.head? = some (.message kind guards text)) ∨
        ∃ k, k ≠ .flag ∧ line.opensWith k = true ∧ line.tokens ≠ [.keyword k]) ∧
      ∃ clause, Guard.clause clause ∈ line.guards ∧ f ∈ clause.flags := by
  have htransition : f ∈ c.transitions.flatMap Transition.clauseFlags →
      ∃ line ∈ lines, ((∃ kind guards text,
          line.tokens.head? = some (.message kind guards text)) ∨
        ∃ k, k ≠ .flag ∧ line.opensWith k = true ∧ line.tokens ≠ [.keyword k]) ∧
      ∃ clause, Guard.clause clause ∈ line.guards ∧ f ∈ clause.flags := by
    intro hmem
    obtain ⟨t, ht, hft⟩ := List.mem_flatMap.1 hmem
    obtain ⟨line, hline, hopens, htline⟩ := h.exists_line ht
    obtain ⟨clause, hclause, hfc⟩ := CodeLine.mem_guards_of_transition? htline hft
    have hne : ∀ k, line.tokens ≠ [.keyword k] := by
      intro k htokens
      rw [htokens] at hclause
      exact absurd hclause (by simp [Token.guard?])
    obtain ⟨token, htoken, hguard⟩ := List.mem_filterMap.1 hclause
    refine ⟨line, hline, Or.inr ?_, clause,
      List.mem_flatMap.2 ⟨token, htoken, Token.mem_guards_of_guard? hguard⟩, hfc⟩
    rcases hopens with hopens | hopens
    · exact ⟨.goto, by decide, hopens, hne _⟩
    · exact ⟨.is, by decide, hopens, hne _⟩
  cases c with
  | textLine kind conditions text =>
    obtain ⟨line, hline, guards, hhead, rfl⟩ := h.exists_textLine
    obtain ⟨clause, hclause, hfc⟩ :=
      @exists_clause_of_mem_readGuards f guards false (List.mem_append_left _ hf)
    refine ⟨line, hline, Or.inl ⟨kind, guards, text, hhead⟩, clause, ?_, hfc⟩
    exact List.mem_flatMap.2 ⟨_, List.mem_of_mem_head? hhead, hclause⟩
  | choice time options => exact htransition hf
  | goto t => exact htransition hf
  | exec name args => exact htransition hf
  | pageEnd mode => exact htransition hf
  | broken number source => exact htransition hf

/-- **The flags of an accepted script are declared exactly when those are that are written
loosely.** -/
theorem clauseFlags_declared_iff {catalog : Catalog} {text : String} {script : Script}
    (haccepted : Accepted catalog text) (hread : Script.read text = .ok script) :
    (∀ f ∈ script.clauseFlags,
        f ∈ declaredNames .flag (declarations (Line.ofText text.toList))) ↔
      ∀ f ∈ script.clauseFlags, WrittenLoosely (codeLines text.toList) f →
        f ∈ declaredNames .flag (declarations (Line.ofText text.toList)) := by
  constructor
  · intro h f hf _
    exact h f hf
  · intro h f hf
    by_cases hloose : WrittenLoosely (codeLines text.toList) f
    · exact h f hf hloose
    · obtain ⟨page, hpage, hcommands⟩ := List.mem_flatMap.1 hf
      obtain ⟨command, hcommand, hflag⟩ := List.mem_flatMap.1 hcommands
      rw [Script.read_eq_ok hread] at hpage
      obtain ⟨line, hline, hkind, clause, hclause, hfc⟩ := exists_clauseWord_of_mem_clauseFlags
        (Reader.readFrom_run _ page hpage command hcommand) hflag
      obtain ⟨n, raw, hmem, hraw⟩ := mem_codeLines.1 hline
      rw [CodeLine.guards_eq hraw] at hclause
      obtain ⟨w, hw, hguard⟩ := List.mem_filterMap.1 hclause
      obtain ⟨front, piece, hlists, rfl⟩ := exists_listsFlag hguard hfc
      have hplain : IsPlainFlag front piece := by
        by_contra hnot
        exact hloose ⟨line, hline, w, hw, front, piece, hlists, rfl, hnot⟩
      refine haccepted.flag_of_isPlainFlag hmem hraw ?_ hw hlists hplain
      rcases hkind with ⟨kind, guards, message, hhead⟩ | ⟨k, hk, hopens, htokens⟩
      · refine Or.inl fun hnone => ?_
        obtain ⟨-, rfl⟩ := CodeLine.ofRaw?_eq_some_iff.1 hraw
        simp only [Token.ofLine_of_layout?_eq_none hnone] at hhead
        rw [List.head?_map] at hhead
        obtain ⟨v, -, hv⟩ := Option.map_eq_some_iff.1 hhead
        exact Token.ofWord_ne_message v _ _ _ hv
      · rcases Line.keyword?_of_opensWith hraw hopens with hkeyword | ⟨-, hsingle⟩
        · exact Or.inr ⟨k, hk, hkeyword⟩
        · exact absurd hsingle htokens

/-! ## A flag that no check sees -/

/-- A jump on a flag that is written without its sigil and declared nowhere. -/
def keyText : String := "DEFINE \"key\"\nPAGE @gate\nTO @gate true:key"

/-- The script with that jump. -/
def keyScript : Script :=
  ⟨"key", ["gate"], [],
    [⟨"gate", [.goto ⟨.page "gate", [⟨.allTrue, ["key"]⟩], []⟩]⟩]⟩

theorem read_keyText : Accepted .empty keyText ∧ Script.read keyText = .ok keyScript := by
  unfold Accepted
  decide +kernel

/-- **The text is accepted, and its flag is not declared.** -/
theorem key_notMem_declaredNames :
    Accepted .empty keyText ∧ Script.read keyText = .ok keyScript ∧
      "key" ∈ keyScript.clauseFlags ∧
        "key" ∉ declaredNames .flag (declarations (Line.ofText keyText.toList)) :=
  ⟨read_keyText.1, read_keyText.2, by decide +kernel, by decide +kernel⟩

/-- The flag is one that is written loosely. -/
theorem clauseFlags_declared_iff_keyText :
    ¬ ∀ f ∈ keyScript.clauseFlags, WrittenLoosely (codeLines keyText.toList) f →
      f ∈ declaredNames .flag (declarations (Line.ofText keyText.toList)) := by
  rw [← clauseFlags_declared_iff read_keyText.1 read_keyText.2]
  decide +kernel

end Gamebook
