import Gamebook.Proofs.Pattern
import Gamebook.Proofs.Script.Token
import Gamebook.Proofs.Story.Basic

/-!
Gamebook.Proofs.Story.Word — the words of a story, on their own.

A word is *solid* (`IsSolid`) if it is taken for one word wherever it is written between two spaces: no
blank outside quotation marks cuts it, it closes its quotation, and no comment starts in it. All words
that a story is written with are solid, and each of them is read as what it was written for.

* `Clause.ofWord?_word`: a clause is read as the clause itself.
* `Destination.WellFormed.destination?`: so is a destination.
* `ChoiceOption.HasLabel.label?`: so is the label of an option.
-/

namespace Gamebook

open Text

/-! ## Solid words -/

/-- The word stands on its own between two spaces. -/
structure IsSolid (w : List Char) : Prop where
  /-- No blank cuts it. -/
  isWord : IsWord w
  /-- No quotation is open behind it. -/
  closed : quotedAt false w = false
  /-- No comment starts in it. -/
  noComment : stripComment w = w
  /-- It stays on its line. -/
  newline_notMem : '\n' ∉ w

namespace IsSolid

/-- The last character is no blank: that would be a quoted one, in front of a closing mark. -/
theorem getLast {w : List Char} (h : IsSolid w) : ∀ c ∈ w.getLast?, isBlank c = false := by
  intro c hc
  obtain ⟨p, rfl⟩ := List.getLast?_eq_some_iff.1 hc
  cases hblank : isBlank c with
  | false => rfl
  | true =>
    have hquoted : quotedAt false p = true := h.isWord.2 p c [] rfl hblank
    have hclosed := h.closed
    rw [quotedAt_append, hquoted, quotedAt_cons, quotedAfter_of_ne (ne_quote_of_isBlank hblank),
      quotedAt_nil] at hclosed
    exact absurd hclosed (by decide)

/-- A word without blanks and quotation marks is solid, unless a comment starts in it. -/
theorem of_notMem {w : List Char} (hne : w ≠ []) (hblank : ∀ c ∈ w, isBlank c = false)
    (hquote : '"' ∉ w) (hcomment : stripComment w = w) : IsSolid w where
  isWord := isWord_of_no_blank hne hblank
  closed := quotedAt_of_notMem hquote false
  noComment := hcomment
  newline_notMem := fun hm => absurd (hblank _ hm) (by decide)

end IsSolid

/-- The word holds word characters and marks of the language only: no blank, no quotation mark and
no slash. -/
structure IsPlain (w : List Char) : Prop where
  /-- There is a word. -/
  ne_nil : w ≠ []
  /-- Its characters. -/
  chars : ∀ c ∈ w, isWordChar c = true ∨ c ∈ ['-', ':', '$', ',', '@', '^', '#']

namespace IsPlain

variable {w : List Char}

theorem notMem (h : IsPlain w) {c : Char} (hword : isWordChar c = false)
    (hmark : c ∉ ['-', ':', '$', ',', '@', '^', '#']) : c ∉ w := by
  intro hm
  rcases h.chars c hm with hc | hc
  · rw [hword] at hc
    exact absurd hc (by decide)
  · exact hmark hc

theorem quote_notMem (h : IsPlain w) : '"' ∉ w := h.notMem (by decide) (by decide)

theorem isSolid (h : IsPlain w) : IsSolid w := by
  refine IsSolid.of_notMem h.ne_nil ?_ h.quote_notMem ?_
  · intro c hc
    rcases h.chars c hc with hword | hmark
    · exact isBlank_of_isWordChar hword
    · have key : ∀ c ∈ ['-', ':', '$', ',', '@', '^', '#'], isBlank c = false := by decide
      exact key c hmark
  · exact stripCommentFrom_of_notMem (h.notMem (by decide) (by decide)) false

/-- A sigil and word characters. -/
theorem cons {c : Char} (hc : c ∈ ['-', ':', '$', ',', '@', '^', '#']) {s : List Char}
    (hs : ∀ d ∈ s, isWordChar d = true) : IsPlain (c :: s) := by
  refine ⟨by simp, fun d hd => ?_⟩
  rcases List.mem_cons.1 hd with rfl | hd
  · exact Or.inr hc
  · exact Or.inl (hs d hd)

end IsPlain

/-- A quotation is solid, whatever is quoted. -/
theorem isSolid_quotation {text : String} (h : IsQuotable text) : IsSolid (quotation text) where
  isWord := isWord_quoted h.1
  closed := by
    show quotedAt true (text.toList ++ ['"']) = false
    rw [quotedAt_append, quotedAt_of_notMem h.1]
    rfl
  noComment := by
    have hquoted : stripCommentFrom true (text.toList ++ ['"']) = text.toList ++ ['"'] := by
      rw [stripCommentFrom_append true ['"'] (stripCommentFrom_true_of_notMem h.1) (by decide),
        quotedAt_of_notMem h.1]
      rfl
    show stripCommentFrom false ('"' :: (text.toList ++ ['"'])) = _
    rw [stripCommentFrom, if_neg (by simp)]
    exact congrArg ('"' :: ·) hquoted
  newline_notMem := by
    simp only [quotation, List.mem_cons, List.mem_append, List.not_mem_nil, or_false, not_or]
    exact ⟨by decide, h.2, by decide⟩

/-! ## Names -/

theorem IsName.toList_ne_nil {name : String} (h : IsName name) : name.toList ≠ [] := by
  rw [ne_eq, String.toList_eq_nil_iff]
  exact h.1

theorem isPlain_pageWord {name : String} (h : IsName name) : IsPlain (pageWord name) :=
  IsPlain.cons (by decide) h.2

theorem isPlain_flagWord {name : String} (h : IsName name) : IsPlain (flagWord name) :=
  IsPlain.cons (by decide) h.2

theorem isPlain_commandWord {name : String} (h : IsCommandName name) :
    IsPlain ('#' :: name.toList) :=
  IsPlain.cons (by decide) fun c hc => isWordChar_of_isCommandChar (h.2 c hc)

/-- A page is read as the page. -/
theorem ofWord_pageWord {name : String} (h : IsName name) :
    Token.ofWord (pageWord name) = .page name := by
  have hcaret : ∀ c ∈ name.toList.head?, c ≠ '^' := by
    rintro c hc rfl
    exact absurd (h.2 '^' (List.mem_of_mem_head? hc)) (by decide)
  rw [pageWord, Token.ofWord_at hcaret, if_neg h.toList_ne_nil, String.ofList_toList]

/-! ## Clauses -/

theorem isFlagListChar_of_mem_intercalate : ∀ {flags : List String}, (∀ f ∈ flags, IsName f) →
    ∀ c ∈ [','].intercalate (flags.map flagWord), isFlagListChar c = true
  | [], _, c, hc => absurd hc (by simp)
  | f :: flags, h, c, hc => by
      have hflag : ∀ c ∈ flagWord f, isFlagListChar c = true := by
        intro c hc
        rcases List.mem_cons.1 hc with rfl | hc
        · decide
        · simp [isFlagListChar, (h f List.mem_cons_self).2 c hc]
      cases flags with
      | nil =>
        rw [List.map_singleton, List.intercalate_singleton] at hc
        exact hflag c hc
      | cons g flags =>
        rw [List.map_cons, List.map_cons, List.intercalate_cons_cons, List.append_assoc,
          List.mem_append, List.mem_append, ← List.map_cons] at hc
        rcases hc with hc | hc | hc
        · exact hflag c hc
        · rw [List.mem_singleton.1 hc]
          decide
        · exact isFlagListChar_of_mem_intercalate (fun f hf => h f (List.mem_cons_of_mem _ hf)) c hc

/-- The list of flags is read as the flags. An empty list is written as nothing at all. -/
theorem flagList_intercalate {flags : List String} (h : ∀ f ∈ flags, IsName f) :
    flagList ([','].intercalate (flags.map flagWord)) = flags := by
  cases flags with
  | nil => rfl
  | cons f fs =>
    have hcomma : ∀ w ∈ (f :: fs).map flagWord, ',' ∉ w := by
      intro w hw
      obtain ⟨g, hg, rfl⟩ := List.mem_map.1 hw
      intro hm
      rcases List.mem_cons.1 hm with hm | hm
      · exact absurd hm (by decide)
      · exact absurd ((h g hg).2 ',' hm) (by decide)
    have hpieces : ((f :: fs).map flagWord).filter (· != []) = (f :: fs).map flagWord := by
      refine List.filter_eq_self.2 fun w hw => ?_
      obtain ⟨g, -, rfl⟩ := List.mem_map.1 hw
      rfl
    rw [flagList, pieces_intercalate (by simp) hcomma, hpieces, List.map_map]
    refine (List.map_congr_left fun g _ => ?_).trans (List.map_id _)
    show String.ofList ((dropPrefix? ['$'] (['$'] ++ g.toList)).getD _) = g
    rw [dropPrefix?_append, Option.getD_some, String.ofList_toList]

theorem isClauseWord_word {c : Clause} (h : ∀ f ∈ c.flags, IsName f) : IsClauseWord c.word :=
  Or.inr ⟨c.kind, _, rfl, isFlagListChar_of_mem_intercalate h⟩

theorem IsClauseWord.isPlain {w : List Char} (h : IsClauseWord w) : IsPlain w := by
  refine ⟨h.ne_nil, fun c hc => ?_⟩
  rcases h.plain c hc with hword | hmark
  · exact Or.inl hword
  · have key : ∀ c ∈ ['-', ':', '$', ','], c ∈ ['-', ':', '$', ',', '@', '^', '#'] := by decide
    exact Or.inr (key c hmark)

/-- **A clause is read as itself.** -/
theorem Clause.ofWord?_word {c : Clause} (h : ∀ f ∈ c.flags, IsName f) :
    Guard.ofWord? c.word = some (.clause c) :=
  Guard.ofWord?_eq_some_iff.2 (Or.inr ⟨c.kind, _, rfl, by rw [flagList_intercalate h]⟩)

theorem filterMap_ofWord?_word : ∀ {clauses : List Clause},
    (∀ c ∈ clauses, ∀ f ∈ c.flags, IsName f) →
      (clauses.map Clause.word).filterMap Guard.ofWord? = clauses.map Guard.clause
  | [], _ => rfl
  | c :: clauses, h => by
      have hc := Clause.ofWord?_word (h c List.mem_cons_self)
      have ih := filterMap_ofWord?_word fun d hd => h d (List.mem_cons_of_mem _ hd)
      rw [List.map_cons, List.filterMap_cons_some hc, ih, List.map_cons]

/-! ## Destinations -/

theorem isPlain_metaTarget (t : MetaTarget) : IsPlain t.word := by
  refine ⟨by simp [MetaTarget.word], ?_⟩
  cases t <;> decide

theorem ofWord_metaTarget (t : MetaTarget) : Token.ofWord t.word = .metaTarget t := by
  cases t <;> rfl

section Names

variable {pages flags : List String} (hpages : ∀ name ∈ pages, IsName name)
include hpages

theorem Destination.WellFormed.isPlain {d : Destination} (h : d.WellFormed pages) :
    IsPlain d.word := by
  cases d with
  | page name => exact isPlain_pageWord (hpages name h)
  | stayHere => exact isPlain_metaTarget .here
  | goBack => exact isPlain_metaTarget .back

/-- **A destination is read as itself.** -/
theorem Destination.WellFormed.destination? {d : Destination} (h : d.WellFormed pages) :
    (Token.ofWord d.word).destination? = some d := by
  cases d with
  | page name =>
    rw [word, ofWord_pageWord (hpages name h)]
    rfl
  | stayHere =>
    rw [word, ofWord_metaTarget]
    rfl
  | goBack =>
    rw [word, ofWord_metaTarget]
    rfl

omit hpages in
theorem Destination.guard?_word (d : Destination) : (Token.ofWord d.word).guard? = none := by
  refine Token.guard?_of_isSigiled ?_
  cases d <;> exact Token.isSigiled_ofWord (by decide) _

variable (hflags : ∀ name ∈ flags, IsName name)
include hflags

/-- The arguments of commands are solid. -/
theorem IsArgument.isSolid {a : String} (h : IsArgument pages flags a) : IsSolid a.toList := by
  cases h with
  | text h =>
    rw [String.toList_ofList]
    exact isSolid_quotation h
  | page h =>
    rw [String.toList_ofList]
    exact (isPlain_pageWord (hpages _ h)).isSolid
  | flag h =>
    rw [String.toList_ofList]
    exact (isPlain_flagWord (hflags _ h)).isSolid

end Names

/-! ## Labels and time limits -/

theorem ofWord_quotation (text : String) : Token.ofWord (quotation text) = .text text := by
  show Token.text (String.ofList (chop '"' (text.toList ++ ['"']))) = _
  rw [chop_concat, String.ofList_toList]

theorem Special.isSolid_letters (m : Special) : IsSolid m.letters := by
  cases m <;> exact IsSolid.of_notMem (by decide) (by decide) (by decide) (by decide)

theorem Special.accepts_letters (m : Special) : ArgKind.textOrSpecial.accepts m.letters = true := by
  cases m <;> decide

/-- What stands in the place of the option's text. -/
def ChoiceOption.optionLabel (o : ChoiceOption) : OptionLabel :=
  match o.text with
  | some text => .text text
  | none => .special (if o.isCancel then .cancel else .timeup)

namespace ChoiceOption.HasLabel

variable {o : ChoiceOption}

theorem isSolid (h : o.HasLabel) : IsSolid o.label := by
  cases h with
  | text h => exact isSolid_quotation h
  | cancel => exact Special.cancel.isSolid_letters
  | timeup => exact Special.timeup.isSolid_letters

/-- **A label is read as itself.** -/
theorem label? (h : o.HasLabel) : (Token.ofWord o.label).label? = some o.optionLabel := by
  cases h with
  | @text text _ _ =>
    show (Token.ofWord (quotation text)).label? = _
    rw [ofWord_quotation]
    rfl
  | cancel => rfl
  | timeup => rfl

theorem accepts (h : o.HasLabel) : ArgKind.textOrSpecial.accepts o.label = true := by
  cases h with
  | text h => rfl
  | cancel => exact Special.cancel.accepts_letters
  | timeup => exact Special.timeup.accepts_letters

end ChoiceOption.HasLabel

theorem TimeLimit.isSolid_word (t : TimeLimit) : IsSolid t.word := by
  cases t <;> exact IsSolid.of_notMem (by decide) (by decide) (by decide) (by decide)

theorem TimeLimit.ofWord_word (t : TimeLimit) : Token.ofWord t.word = .time t := by
  cases t <;> rfl

end Gamebook
