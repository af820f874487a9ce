import Gamebook.Check.Report
import Gamebook.Proofs.Pattern
import Gamebook.Proofs.Story.Line

/-!
Gamebook.Proofs.Story.Harmless — no search for errors finds any in the lines of a story.

Errors in the code of a line come from searches for pages, for flags, and for clauses that are joined
by a comma. A text is *harmless* (`Harmless`) if these searches find nothing but names of the story in
it. Harmless texts behind each other are harmless, as long as the second one does not continue a word
of the first one (`Harmless.append`). So it is enough to look at each word on its own, and quoted text
does not count at all.

`severity_ne_of_mem_codeMarks` draws the conclusion.
-/

namespace Gamebook

open Text

/-- Behind each `sigil` in the text stands one of the names, or none at all. -/
def Refers (sigil : Char) (names : List String) (s : List Char) : Prop :=
  ∀ a r, s = a ++ sigil :: r → wordRun r = [] ∨ String.ofList (wordRun r) ∈ names

namespace Refers

variable {sigil : Char} {names : List String} {s t : List Char}

theorem of_notMem (h : sigil ∉ s) : Refers sigil names s := by
  rintro a r rfl
  exact absurd (by simp) h

theorem append (hs : Refers sigil names s) (ht : Refers sigil names t)
    (hhead : ∀ c ∈ t.head?, isWordChar c = false) : Refers sigil names (s ++ t) := by
  intro a r h
  rcases List.append_eq_append_iff.1 h with ⟨b, -, hb⟩ | ⟨b, hb, hr⟩
  · exact ht b r hb
  · cases b with
    | nil => exact ht [] r hr.symm
    | cons d b =>
      obtain rfl : sigil = d := (List.cons.inj hr).1
      have htail : r = b ++ t := (List.cons.inj hr).2
      rw [htail, wordRun_append_of_head hhead]
      exact hs a b hb

theorem cons {c : Char} (hc : c ≠ sigil) (hs : Refers sigil names s) :
    Refers sigil names (c :: s) := by
  intro a r h
  cases a with
  | nil => exact absurd (List.cons.inj h).1 hc
  | cons d a => exact hs a r (List.cons.inj h).2

/-- A mention of one of the names. -/
theorem mention {name : String} (hmem : name ∈ names) (hname : IsName name)
    (hsigil : isWordChar sigil = false) : Refers sigil names (sigil :: name.toList) := by
  intro a r h
  cases a with
  | nil =>
    obtain ⟨-, rfl⟩ := List.cons.inj h
    have hrun : wordRun name.toList = name.toList := by
      have := wordRun_append (r := []) hname.2 (by simp)
      rwa [List.append_nil] at this
    rw [hrun, String.ofList_toList]
    exact Or.inr hmem
  | cons d a =>
    have hm : sigil ∈ name.toList := by
      rw [(List.cons.inj h).2]
      simp
    rw [hname.2 sigil hm] at hsigil
    exact absurd hsigil (by decide)

end Refers

namespace Pattern.HasCommaLetter

theorem of_cons {c : Char} {s : List Char} (hc : c ≠ ',') (h : HasCommaLetter (c :: s)) :
    HasCommaLetter s := by
  obtain ⟨a, d, r, hs, hd⟩ := h
  cases a with
  | nil => exact absurd (List.cons.inj hs).1 hc
  | cons b a => exact ⟨a, d, r, (List.cons.inj hs).2, hd⟩

theorem of_append {s t : List Char} (ht : ∀ c ∈ t.head?, isWordChar c = false)
    (h : HasCommaLetter (s ++ t)) : HasCommaLetter s ∨ HasCommaLetter t := by
  obtain ⟨a, d, r, hs, hd⟩ := h
  rcases List.append_eq_append_iff.1 hs with ⟨b, -, hb⟩ | ⟨b, hb, hr⟩
  · exact Or.inr ⟨b, d, r, hb, hd⟩
  · cases b with
    | nil => exact Or.inr ⟨[], d, r, hr.symm, hd⟩
    | cons e b =>
      obtain rfl : ',' = e := (List.cons.inj hr).1
      have htail : d :: r = b ++ t := (List.cons.inj hr).2
      cases b with
      | nil =>
        -- The letter would be the first character of the second text.
        have hword : isWordChar d = false := ht d (by rw [← List.nil_append t, ← htail]; rfl)
        rw [isWordChar_of_isLower hd] at hword
        exact absurd hword (by decide)
      | cons f b =>
        obtain rfl : d = f := (List.cons.inj htail).1
        exact Or.inl ⟨a, d, b, hb, hd⟩

end Pattern.HasCommaLetter

/-- The searches for errors find only names of the story in the text. -/
structure Harmless (pages flags : List String) (s : List Char) : Prop where
  /-- Pages. -/
  pages : Refers '@' pages s
  /-- Flags. -/
  flags : Refers '$' flags s
  /-- No clauses are joined. -/
  noJoin : ¬ Pattern.HasCommaLetter s

namespace Harmless

variable {pages flags : List String} {s t : List Char}

theorem of_notMem (hat : '@' ∉ s) (hdollar : '$' ∉ s) (hcomma : ',' ∉ s) :
    Harmless pages flags s := by
  refine ⟨.of_notMem hat, .of_notMem hdollar, ?_⟩
  rintro ⟨a, c, r, rfl, -⟩
  exact absurd (by simp) hcomma

/-- **Harmless texts behind each other**, if no word goes on from one to the other. -/
theorem append (hs : Harmless pages flags s) (ht : Harmless pages flags t)
    (hhead : ∀ c ∈ t.head?, isWordChar c = false) : Harmless pages flags (s ++ t) :=
  ⟨hs.pages.append ht.pages hhead, hs.flags.append ht.flags hhead, fun h =>
    (h.of_append hhead).elim hs.noJoin ht.noJoin⟩

theorem cons {c : Char} (hc : c ∉ ['@', '$', ',']) (hs : Harmless pages flags s) :
    Harmless pages flags (c :: s) := by
  simp only [List.mem_cons, List.not_mem_nil, or_false, not_or] at hc
  exact ⟨hs.pages.cons hc.1, hs.flags.cons hc.2.1, fun h => hs.noJoin (h.of_cons hc.2.2)⟩

/-! ## Words -/

theorem pageWord {name : String} (hmem : name ∈ pages) (hname : IsName name) :
    Harmless pages flags (pageWord name) := by
  have hnot : ∀ {c : Char}, isWordChar c = false → c ≠ '@' → c ∉ Gamebook.pageWord name := by
    intro c hc hne hm
    rcases List.mem_cons.1 hm with hm | hm
    · exact hne hm
    · rw [hname.2 c hm] at hc
      exact absurd hc (by decide)
  refine ⟨.mention hmem hname (by decide), .of_notMem (hnot (by decide) (by decide)), ?_⟩
  rintro ⟨a, c, r, heq, -⟩
  exact hnot (c := ',') (by decide) (by decide) (by rw [heq]; simp)

theorem flagWord {name : String} (hmem : name ∈ flags) (hname : IsName name) :
    Harmless pages flags (flagWord name) := by
  have hnot : ∀ {c : Char}, isWordChar c = false → c ≠ '$' → c ∉ Gamebook.flagWord name := by
    intro c hc hne hm
    rcases List.mem_cons.1 hm with hm | hm
    · exact hne hm
    · rw [hname.2 c hm] at hc
      exact absurd hc (by decide)
  refine ⟨.of_notMem (hnot (by decide) (by decide)), .mention hmem hname (by decide), ?_⟩
  rintro ⟨a, c, r, heq, -⟩
  exact hnot (c := ',') (by decide) (by decide) (by rw [heq]; simp)

/-- Only a caret stands behind the sigil of a meta target. -/
theorem metaTarget (t : MetaTarget) : Harmless pages flags t.word := by
  have hnot : '@' ∉ '^' :: t.letters ∧ '$' ∉ t.word ∧ ',' ∉ t.word := by cases t <;> decide
  refine ⟨?_, .of_notMem hnot.2.1, ?_⟩
  · intro a r h
    cases a with
    | nil =>
      obtain ⟨-, rfl⟩ := List.cons.inj h
      exact Or.inl rfl
    | cons d a =>
      refine absurd ?_ hnot.1
      rw [(List.cons.inj h).2]
      simp
  · rintro ⟨a, c, r, heq, -⟩
    exact hnot.2.2 (by rw [heq]; simp)

theorem head_intercalate (fs : List String) :
    ∀ c ∈ ([','].intercalate (fs.map Gamebook.flagWord)).head?, isWordChar c = false := by
  intro c hc
  cases fs with
  | nil => exact absurd hc (by simp)
  | cons f fs =>
    have hdollar : '$' = c := by cases fs <;> simpa [Gamebook.flagWord] using hc
    rw [← hdollar]
    decide

/-- Flags with commas between them. -/
theorem intercalate : ∀ {fs : List String}, (∀ f ∈ fs, f ∈ flags ∧ IsName f) →
    Harmless pages flags ([','].intercalate (fs.map Gamebook.flagWord))
  | [], _ => of_notMem (by simp) (by simp) (by simp)
  | [f], h => by
      rw [List.map_singleton, List.intercalate_singleton]
      exact flagWord (h f List.mem_cons_self).1 (h f List.mem_cons_self).2
  | f :: g :: fs, h => by
      have ih := intercalate fun e he => h e (List.mem_cons_of_mem f he)
      have hcomma : Harmless pages flags ([','] ++
          [','].intercalate ((g :: fs).map Gamebook.flagWord)) := by
        refine append ?_ ih (head_intercalate (g :: fs))
        refine ⟨.of_notMem (by decide), .of_notMem (by decide), ?_⟩
        rintro ⟨a, c, r, heq, -⟩
        have hlength := congrArg List.length heq
        simp at hlength
        omega
      rw [List.map_cons, List.map_cons, List.intercalate_cons_cons, List.append_assoc]
      refine append (flagWord (h f List.mem_cons_self).1 (h f List.mem_cons_self).2) hcomma ?_
      intro c hc
      obtain rfl : ',' = c := by simpa using hc
      decide

theorem clauseWord {c : Clause} (h : ∀ f ∈ c.flags, f ∈ flags ∧ IsName f) :
    Harmless pages flags c.word := by
  have hopening : ∀ {d : Char}, d.isLower = false → d ≠ '-' → d ≠ ':' → d ∉ c.kind.opening := by
    intro d hlower hhyphen hcolon hm
    rcases List.mem_append.1 hm with hm | hm
    · rcases c.kind.plain_of_mem_letters d hm with hd | hd
      · rw [hlower] at hd
        exact absurd hd (by decide)
      · exact hhyphen hd
    · exact hcolon (List.mem_singleton.1 hm)
  exact append (of_notMem (hopening (by decide) (by decide) (by decide))
    (hopening (by decide) (by decide) (by decide)) (hopening (by decide) (by decide) (by decide)))
    (intercalate h) (head_intercalate c.flags)

/-! ## Words with their quoted text blanked -/

theorem blankQuoted (hquote : '"' ∉ s) (h : Harmless pages flags s) :
    Harmless pages flags (Text.blankQuoted s) := by
  rw [Text.blankQuoted, blankQuotedFrom_of_notMem hquote]
  exact h

/-- Whatever is quoted, it does not show. -/
theorem quotation {text : String} (h : IsQuotable text) :
    Harmless pages flags (Text.blankQuoted (quotation text)) := by
  have hblank : Text.blankQuoted (Gamebook.quotation text) =
      '"' :: (List.replicate (byteLength text.toList) ' ' ++ ['"']) := by
    show '"' :: blankQuotedFrom true (text.toList ++ ['"']) = _
    rw [blankQuotedFrom_append, blankQuotedFrom_true_of_notMem h.1, quotedAt_of_notMem h.1]
    rfl
  have hnot : ∀ {c : Char}, c ≠ '"' → c ≠ ' ' →
      c ∉ '"' :: (List.replicate (byteLength text.toList) ' ' ++ ['"']) := by
    intro c hquote hspace hm
    rcases List.mem_cons.1 hm with hm | hm
    · exact hquote hm
    · rcases List.mem_append.1 hm with hm | hm
      · exact hspace (List.mem_replicate.1 hm).2
      · exact hquote (List.mem_singleton.1 hm)
  rw [hblank]
  exact of_notMem (hnot (by decide) (by decide)) (hnot (by decide) (by decide))
    (hnot (by decide) (by decide))

theorem label {o : ChoiceOption} (h : o.HasLabel) :
    Harmless pages flags (Text.blankQuoted o.label) := by
  have hspecial : ∀ m : Special, Harmless pages flags (Text.blankQuoted m.letters) := by
    intro m
    have hnot : '"' ∉ m.letters ∧ '@' ∉ m.letters ∧ '$' ∉ m.letters ∧ ',' ∉ m.letters := by
      cases m <;> decide
    exact blankQuoted hnot.1 (of_notMem hnot.2.1 hnot.2.2.1 hnot.2.2.2)
  cases h with
  | text h => exact quotation h
  | cancel => exact hspecial .cancel
  | timeup => exact hspecial .timeup

theorem time (t : TimeLimit) : Harmless pages flags (Text.blankQuoted t.word) := by
  have hnot : '"' ∉ t.word ∧ '@' ∉ t.word ∧ '$' ∉ t.word ∧ ',' ∉ t.word := by cases t <;> decide
  exact blankQuoted hnot.1 (of_notMem hnot.2.1 hnot.2.2.1 hnot.2.2.2)

theorem command {name : String} (h : IsCommandName name) :
    Harmless pages flags (Text.blankQuoted ('#' :: name.toList)) := by
  have hnot : ∀ {c : Char}, isCommandChar c = false → c ≠ '#' → c ∉ '#' :: name.toList := by
    intro c hc hne hm
    rcases List.mem_cons.1 hm with hm | hm
    · exact hne hm
    · rw [h.2 c hm] at hc
      exact absurd hc (by decide)
  exact blankQuoted (hnot (by decide) (by decide)) (of_notMem (hnot (by decide) (by decide))
    (hnot (by decide) (by decide)) (hnot (by decide) (by decide)))

section Names

variable (hpages : ∀ name ∈ pages, IsName name) (hflags : ∀ name ∈ flags, IsName name)
include hpages hflags

theorem transition {t : Transition} (h : t.WellFormed pages flags) :
    ∀ w ∈ t.words, Harmless pages flags (Text.blankQuoted w) := by
  intro w hw
  rcases List.mem_cons.1 hw with rfl | hw
  · refine blankQuoted (h.destination.isPlain hpages).quote_notMem ?_
    have hdestination := h.destination
    cases hd : t.destination with
    | page name =>
      rw [hd] at hdestination
      exact pageWord hdestination (hpages name hdestination)
    | stayHere => exact metaTarget .here
    | goBack => exact metaTarget .back
  · obtain ⟨c, hc, rfl⟩ := List.mem_map.1 hw
    have hname := h.isName hflags c hc
    refine blankQuoted (isClauseWord_word hname).isPlain.quote_notMem (clauseWord fun f hf => ?_)
    refine ⟨?_, hname f hf⟩
    rcases List.mem_append.1 hc with hc | hc
    · obtain ⟨d, hd, rfl⟩ := List.mem_map.1 hc
      exact h.conditions d hd hf
    · obtain ⟨e, he, rfl⟩ := List.mem_map.1 hc
      exact h.effects e he hf

theorem argument {a : String} (h : IsArgument pages flags a) :
    Harmless pages flags (Text.blankQuoted a.toList) := by
  cases h with
  | text h =>
    rw [String.toList_ofList]
    exact quotation h
  | page h =>
    rw [String.toList_ofList]
    exact blankQuoted (isPlain_pageWord (hpages _ h)).quote_notMem (pageWord h (hpages _ h))
  | flag h =>
    rw [String.toList_ofList]
    exact blankQuoted (isPlain_flagWord (hflags _ h)).quote_notMem (flagWord h (hflags _ h))

end Names

/-! ## Lines -/

theorem spaced : ∀ {ws : List (List Char)}, (∀ w ∈ ws, Harmless pages flags w) →
    Harmless pages flags (spaced ws)
  | [], _ => of_notMem (by simp [Gamebook.spaced]) (by simp [Gamebook.spaced])
      (by simp [Gamebook.spaced])
  | w :: ws, h => by
      rw [spaced_cons]
      refine append (cons (by decide) (h w List.mem_cons_self))
        (spaced fun v hv => h v (List.mem_cons_of_mem _ hv)) ?_
      exact fun c hc => isWordChar_of_isBlank (stopsWord_spaced ws c hc)

/-- **A line is harmless if its words are.** -/
theorem code_line (k : Keyword) {ws : List (List Char)} (hsolid : ∀ w ∈ ws, IsSolid w)
    (h : ∀ w ∈ ws, Harmless pages flags (Text.blankQuoted w)) (n : Nat) :
    Harmless pages flags (Line.ofRaw n (k.line ws)).code := by
  rw [k.code_line hsolid]
  refine append (of_notMem (k.notMem_letters (by decide)) (k.notMem_letters (by decide))
    (k.notMem_letters (by decide))) (spaced ?_) ?_
  · intro w hw
    obtain ⟨v, hv, rfl⟩ := List.mem_map.1 hw
    exact h v hv
  · exact fun c hc => isWordChar_of_isBlank (stopsWord_spaced _ c hc)

theorem clauseFront (kind : MessageKind) : ∀ {clauses : List Clause},
    (∀ c ∈ clauses, ∀ f ∈ c.flags, f ∈ flags ∧ IsName f) →
      Harmless pages flags (clauseFront clauses ++ [kind.marker])
  | [], _ => by cases kind <;> exact of_notMem (by decide) (by decide) (by decide)
  | c :: clauses, h => by
      have ih := clauseFront kind fun d hd => h d (List.mem_cons_of_mem c hd)
      have hfront : Gamebook.clauseFront (c :: clauses) ++ [kind.marker] =
          c.word ++ ' ' :: (Gamebook.clauseFront clauses ++ [kind.marker]) := by
        rw [Gamebook.clauseFront, List.flatMap_cons, ← Gamebook.clauseFront]
        simp only [List.append_assoc, List.cons_append, List.nil_append]
      rw [hfront]
      refine append (clauseWord (h c List.mem_cons_self)) (cons (by decide) ih) ?_
      intro d hd
      obtain rfl : ' ' = d := by simpa using hd
      decide

end Harmless

/-! ## Marks -/

theorem cause_of_mem_negationMarksIn {line : Line} {m : Mark} : ∀ {ws : List Segment},
    m ∈ negationMarksIn line ws → m.cause = .danglingNegation
  | [], h => absurd h (by simp [negationMarksIn])
  | w :: ws, h => by
      rw [negationMarksIn, List.mem_append] at h
      rcases h with h | h
      · split at h
        · rw [List.mem_singleton.1 h]
        · exact absurd h (by simp)
      · exact cause_of_mem_negationMarksIn h

theorem severity_of_mem_placementMarks {line : Line} {m : Mark} (hm : m ∈ placementMarks line) :
    m.cause.severity = .warning := by
  rw [placementMarks, List.mem_append, List.mem_append, List.mem_append] at hm
  rcases hm with ((hm | hm) | hm) | hm
  all_goals
    split at hm
    · exact absurd hm (by simp)
    · obtain ⟨hit, -, rfl⟩ := List.mem_map.1 hm
      rfl

namespace Harmless

variable {d : Declared} {line : Line}

theorem pageMarks_eq_nil (h : Harmless d.pages d.flags line.code) : pageMarks d line = [] := by
  refine List.filterMap_eq_nil_iff.2 fun hit hhit => if_neg ?_
  rintro ⟨hcaptured, hundeclared⟩
  obtain ⟨a, r, hcode, hbody, hne⟩ := Pattern.exists_append_of_mem_scan_pageRef hhit hcaptured
  rcases h.pages a r hcode with hnil | hmem
  · exact absurd (hbody.trans hnil) hne
  · rw [← hbody] at hmem
    exact absurd hmem hundeclared

theorem flagMarks_eq_nil (h : Harmless d.pages d.flags line.code) : flagMarks d line = [] := by
  refine List.filterMap_eq_nil_iff.2 fun hit hhit => if_neg ?_
  intro hundeclared
  obtain ⟨a, r, hcode, hbody, hne⟩ := Pattern.exists_append_of_mem_scan_flagRef hhit
  rcases h.flags a r hcode with hnil | hmem
  · exact absurd (hbody.trans hnil) hne
  · rw [← hbody] at hmem
    exact absurd hmem hundeclared

/-- A meta target is an error on a PAGE line only, and commands are not looked up in an empty
catalog. -/
theorem referenceMarks_eq_nil (h : Harmless d.pages d.flags line.code)
    (hcatalog : d.catalog.isEmpty = true) (hmeta : line.keyword? = some .page → '^' ∉ line.code) :
    referenceMarks d line = [] := by
  have hmetaMarks : line.keyword? = some .page → metaMarks line = [] := by
    intro hpage
    refine List.map_eq_nil_iff.2 (List.eq_nil_iff_forall_not_mem.2 fun hit hhit => ?_)
    obtain ⟨a, r, hcode⟩ := Pattern.exists_append_of_mem_scan_metaRef hhit
    exact absurd (by rw [hcode]; simp) (hmeta hpage)
  rw [referenceMarks, h.pageMarks_eq_nil, h.flagMarks_eq_nil, if_pos hcatalog]
  split
  next hpage =>
    rw [hmetaMarks hpage]
    simp
  next => simp

theorem joinMarks_eq_nil {pages flags : List String} (h : Harmless pages flags line.code) :
    joinMarks line = [] := by
  refine List.eq_nil_iff_forall_not_mem.2 fun m hm => ?_
  rcases List.mem_append.1 hm with hm | hm
  · obtain ⟨hit, hhit, -⟩ := List.mem_map.1 hm
    exact absurd (Pattern.hasCommaLetter_of_mem_scan (Or.inl (List.mem_of_mem_take hhit))) h.noJoin
  · obtain ⟨hit, hhit, -⟩ := List.mem_map.1 hm
    exact absurd (Pattern.hasCommaLetter_of_mem_scan (Or.inr (List.mem_of_mem_take hhit))) h.noJoin

end Harmless

/-- **On a harmless line, no mark on the code is an error.** -/
theorem severity_ne_of_mem_codeMarks {d : Declared} {line : Line}
    (h : Harmless d.pages d.flags line.code) (hcatalog : d.catalog.isEmpty = true)
    (hmeta : line.keyword? = some .page → '^' ∉ line.code) {m : Mark} (hm : m ∈ codeMarks d line) :
    m.cause.severity ≠ .error := by
  rw [codeMarks, h.referenceMarks_eq_nil hcatalog hmeta, h.joinMarks_eq_nil, List.nil_append,
    List.nil_append, List.mem_append] at hm
  rcases hm with hm | hm
  · rw [severity_of_mem_placementMarks hm]
    decide
  · rw [cause_of_mem_negationMarksIn hm]
    decide

end Gamebook
