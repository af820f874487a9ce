import Gamebook.Proofs.Check.Code
import Gamebook.Proofs.Story.Word

/-!
Gamebook.Proofs.Story.Line — the lines of a story, as the reader and as the checks see them.

A line of solid words is cut into just these words, and nothing of it is lost to a comment. A text
line keeps its clauses and its text, whatever stands in the text.

* `Keyword.ofRaw?_line`, `Keyword.arguments_line`, `Keyword.code_line`: lines that open with a keyword.
* `ofRaw?_textLine`, `code_textLine`: text lines.
-/

namespace Gamebook

open Text

/-- A line that does not end with a carriage return is kept as it is. -/
theorem Text.chop_of_getLast {c : Char} {s : List Char} (h : ∀ d ∈ s.getLast?, d ≠ c) :
    chop c s = s := by
  rcases exists_chop_append c s with hs | hs
  · exact hs.symm
  · refine absurd rfl (h c ?_)
    rw [hs, List.getLast?_concat]
    rfl

/-! ## Spaced words -/

theorem spaced_cons (w : List Char) (ws : List (List Char)) :
    spaced (w :: ws) = (' ' :: w) ++ spaced ws := rfl

theorem stopsWord_spaced (ws : List (List Char)) : StopsWord (spaced ws) := by
  cases ws with
  | nil => intro c hc; exact absurd hc (by simp [spaced])
  | cons w ws =>
    intro c hc
    obtain rfl : ' ' = c := by simpa [spaced] using hc
    decide

/-- No comment starts in a line of solid words, nor where two of them meet. -/
theorem stripComment_spaced : ∀ {ws : List (List Char)}, (∀ w ∈ ws, IsSolid w) →
    stripComment (spaced ws) = spaced ws
  | [], _ => rfl
  | w :: ws, h => by
      have hw : stripCommentFrom false (' ' :: w) = ' ' :: w :=
        congrArg (' ' :: ·) (h w List.mem_cons_self).noComment
      have hnext : ∀ c ∈ (spaced ws).head?, c ≠ '/' :=
        fun c hc => ne_slash_of_isBlank (stopsWord_spaced ws c hc)
      have hq : quotedAt false (' ' :: w) = false := (h w List.mem_cons_self).closed
      have ih := stripComment_spaced fun v hv => h v (List.mem_cons_of_mem _ hv)
      rw [spaced_cons, stripComment, stripCommentFrom_append false _ hw hnext, hq, ← stripComment, ih]

/-- **A line of solid words has just these words.** -/
theorem words_spaced : ∀ {ws : List (List Char)}, (∀ w ∈ ws, IsSolid w) → words (spaced ws) = ws
  | [], _ => rfl
  | w :: ws, h => by
      have hw := h w List.mem_cons_self
      have ih := words_spaced fun v hv => h v (List.mem_cons_of_mem _ hv)
      rw [spaced_cons, List.cons_append, words_cons_blank (by decide),
        words_append_of_stopsWord hw.isWord hw.closed (stopsWord_spaced ws), ih]

theorem newline_notMem_spaced {ws : List (List Char)} (h : ∀ w ∈ ws, IsSolid w) :
    '\n' ∉ spaced ws := by
  intro hm
  obtain ⟨w, hw, hm⟩ := List.mem_flatMap.1 hm
  rcases List.mem_cons.1 hm with hm | hm
  · exact absurd hm (by decide)
  · exact (h w hw).newline_notMem hm

theorem getLast_spaced : ∀ {ws : List (List Char)}, (∀ w ∈ ws, IsSolid w) →
    ∀ c ∈ (spaced ws).getLast?, isBlank c = false
  | [], _ => by simp [spaced]
  | [w], h => by
      intro c hc
      have hw := h w List.mem_cons_self
      refine hw.getLast c ?_
      obtain ⟨d, r, rfl⟩ := List.exists_cons_of_ne_nil hw.isWord.1
      simpa [spaced] using hc
  | w :: v :: ws, h => by
      intro c hc
      refine getLast_spaced (fun u hu => h u (List.mem_cons_of_mem _ hu)) c ?_
      rw [spaced_cons, List.getLast?_append] at hc
      cases hlast : (spaced (v :: ws)).getLast? with
      | none => exact absurd (List.getLast?_eq_none_iff.1 hlast) (by simp [spaced])
      | some d =>
        rw [hlast] at hc
        exact hc

theorem blankQuoted_spaced : ∀ {ws : List (List Char)}, (∀ w ∈ ws, IsSolid w) →
    blankQuoted (spaced ws) = spaced (ws.map blankQuoted)
  | [], _ => rfl
  | w :: ws, h => by
      have hq : quotedAt false (' ' :: w) = false := (h w List.mem_cons_self).closed
      have ih : blankQuotedFrom false (spaced ws) = spaced (ws.map blankQuoted) :=
        blankQuoted_spaced fun v hv => h v (List.mem_cons_of_mem _ hv)
      rw [spaced_cons, blankQuoted, blankQuotedFrom_append, hq, ih]
      rfl

/-! ## Lines with a keyword -/

namespace Keyword

variable {ws : List (List Char)}

theorem getLast_line (k : Keyword) (h : ∀ w ∈ ws, IsSolid w) :
    ∀ c ∈ (k.line ws).getLast?, isBlank c = false := by
  intro c hc
  rw [line, List.getLast?_append] at hc
  cases hlast : (spaced ws).getLast? with
  | none =>
    rw [hlast] at hc
    exact k.isBlank_of_mem_letters c (List.mem_of_getLast? hc)
  | some d =>
    rw [hlast] at hc
    obtain rfl : d = c := by simpa using hc
    exact getLast_spaced h d hlast

theorem trim_line (k : Keyword) (h : ∀ w ∈ ws, IsSolid w) : trim (k.line ws) = k.line ws := by
  refine trim_of_ends ?_ (getLast_line k h)
  intro c hc
  refine k.isBlank_of_mem_letters c ?_
  obtain ⟨d, s, hk⟩ := List.exists_cons_of_ne_nil k.letters_ne_nil
  rw [line, hk, List.cons_append, List.head?_cons, Option.mem_some] at hc
  rw [hk, hc]
  exact List.mem_cons_self

theorem raw_line (k : Keyword) (h : ∀ w ∈ ws, IsSolid w) (n : Nat) :
    (Line.ofRaw n (k.line ws)).raw = k.line ws := by
  refine chop_of_getLast ?_
  rintro d hd rfl
  exact absurd (getLast_line k h _ hd) (by decide)

theorem newline_notMem_line (k : Keyword) (h : ∀ w ∈ ws, IsSolid w) : '\n' ∉ k.line ws := by
  rw [line, List.mem_append, not_or]
  exact ⟨k.notMem_letters (by decide), newline_notMem_spaced h⟩

theorem keyword?_line (k : Keyword) (h : ∀ w ∈ ws, IsSolid w) (n : Nat) :
    (Line.ofRaw n (k.line ws)).keyword? = some k :=
  Line.keyword?_eq_some_iff.2 ⟨spaced ws, trim_line k h, stopsWord_spaced ws⟩

/-- **The arguments on a line are the words that it was written with.** -/
theorem arguments_line (k : Keyword) (h : ∀ w ∈ ws, IsSolid w) (n : Nat) :
    ((Line.ofRaw n (k.line ws)).arguments k).map Segment.text = ws := by
  have htrim := (Line.trimmed_ofRaw n (k.line ws)).trans (trim_line k h)
  rw [Line.arguments_eq htrim, map_text_segmentsAt, stripComment_spaced h, words_spaced h]

/-- **The reader takes the line for its keyword and its words.** -/
theorem ofRaw?_line (k : Keyword) (h : ∀ w ∈ ws, IsSolid w) (n : Nat) :
    ∃ source, CodeLine.ofRaw? n (k.line ws) =
        some ⟨n, source, .keyword k :: ws.map Token.ofWord⟩ ∧ words source = k.letters :: ws := by
  obtain ⟨source, hline, hwords⟩ := CodeLine.ofRaw?_of_keyword? (keyword?_line k h n)
  have htokens : ((Line.ofRaw n (k.line ws)).arguments k).map (fun a => Token.ofWord a.text) =
      ws.map Token.ofWord := by
    conv_rhs => rw [← arguments_line k h n, List.map_map]
    rfl
  rw [htokens] at hline
  rw [arguments_line k h n] at hwords
  exact ⟨source, hline, hwords⟩

/-- References are looked for in each word by itself. -/
theorem code_line (k : Keyword) (h : ∀ w ∈ ws, IsSolid w) (n : Nat) :
    (Line.ofRaw n (k.line ws)).code = k.letters ++ spaced (ws.map blankQuoted) := by
  have hstrip : stripComment (k.line ws) = k.line ws := by
    rw [line, stripComment, stripCommentFrom_append_of_notMem false _ k.slash_notMem_letters,
      quotedAt_of_notMem k.quote_notMem_letters, ← stripComment, stripComment_spaced h]
  rw [Line.code_of_keyword? (keyword?_line k h n), raw_line k h, hstrip, line, blankQuoted,
    blankQuotedFrom_append, quotedAt_of_notMem k.quote_notMem_letters,
    blankQuotedFrom_of_notMem k.quote_notMem_letters, ← blankQuoted, blankQuoted_spaced h]

end Keyword

/-! ## Text lines -/

/-- The clauses of a text line, each with a space behind it. -/
def clauseFront (clauses : List Clause) : List Char := clauses.flatMap fun c => c.word ++ [' ']

theorem textLine_eq (kind : MessageKind) (clauses : List Clause) (text : String) :
    textLine kind clauses text = clauseFront clauses ++ kind.marker :: ' ' :: text.toList := rfl

/-- The clauses make up a run, in front of which blanks may stand. -/
theorem clauseRun_clauseFront : ∀ {clauses : List Clause},
    (∀ c ∈ clauses, IsClauseWord c.word) → ∀ (pos : Nat) {lead : List Char}, AllBlank lead →
      ∃ ws, ClauseRun pos (lead ++ clauseFront clauses) ws ∧
        ws.map Segment.text = clauses.map Clause.word
  | [], _, pos, lead, hlead =>
      ⟨[], .blanks (by rw [clauseFront, List.flatMap_nil, List.append_nil]; exact hlead), rfl⟩
  | c :: clauses, h, pos, lead, hlead => by
      have hspace : AllBlank [' '] := by
        intro d hd
        rw [List.mem_singleton.1 hd]
        decide
      obtain ⟨ws, hrun, hws⟩ := clauseRun_clauseFront
        (fun d hd => h d (List.mem_cons_of_mem _ hd))
        (pos + byteLength lead + byteLength c.word) hspace
      have hstop : StopsWord ([' '] ++ clauseFront clauses) := by
        intro d hd
        obtain rfl : ' ' = d := by simpa using hd
        decide
      have hfront : lead ++ clauseFront (c :: clauses) =
          lead ++ c.word ++ ([' '] ++ clauseFront clauses) := by
        rw [clauseFront, List.flatMap_cons, ← clauseFront]
        simp only [List.append_assoc]
      refine ⟨⟨pos + byteLength lead, c.word⟩ :: ws, ?_, ?_⟩
      · rw [hfront]
        exact .word hlead (h c List.mem_cons_self) hstop hrun
      · rw [List.map_cons, List.map_cons, hws]

section TextLine

variable {clauses : List Clause} {text : String}

/-- Whatever follows the marker, the clauses in front of it are found. -/
theorem layout?_clauseFront (h : ∀ c ∈ clauses, IsClauseWord c.word) (kind : MessageKind) :
    ∃ ws, ws.map Segment.text = clauses.map Clause.word ∧ ∀ after,
      layout? (clauseFront clauses ++ kind.marker :: after) =
        some ⟨kind, ws, byteLength (clauseFront clauses),
          byteLength (clauseFront clauses) + 1 + Layout.gapLength after⟩ := by
  have hnil : AllBlank [] := by simp [AllBlank]
  obtain ⟨ws, hrun, hws⟩ := clauseRun_clauseFront h 0 hnil
  refine ⟨ws, hws, fun after => ?_⟩
  rw [List.nil_append] at hrun
  rw [layout?, Layout.layoutFrom?_of_clauseRun hrun, Nat.zero_add]

/-- A text line starts with a small letter or with its marker. -/
theorem head_clauseFront (h : ∀ c ∈ clauses, IsClauseWord c.word) (kind : MessageKind)
    (after : List Char) :
    ∃ c s, clauseFront clauses ++ kind.marker :: after = c :: s ∧ isBlank c = false ∧
      c.isUpper = false := by
  cases clauses with
  | nil => exact ⟨kind.marker, after, rfl, by cases kind <;> decide, by cases kind <;> decide⟩
  | cons d clauses =>
    obtain ⟨c, r, hword, hlower⟩ := (h d List.mem_cons_self).head
    refine ⟨c, r ++ [' '] ++ clauseFront clauses ++ kind.marker :: after, ?_, ?_,
      isUpper_of_isLower hlower⟩
    · rw [clauseFront, List.flatMap_cons, hword, ← clauseFront]
      simp only [List.append_assoc, List.cons_append]
    · exact (h d List.mem_cons_self).isBlank c (by rw [hword]; exact List.mem_cons_self)

theorem notMem_clauseFront (h : ∀ c ∈ clauses, IsClauseWord c.word) {c : Char}
    (hspace : c ≠ ' ') (hword : isWordChar c = false) (hmark : c ∉ ['-', ':', '$', ',']) :
    c ∉ clauseFront clauses := by
  intro hm
  obtain ⟨d, hd, hm⟩ := List.mem_flatMap.1 hm
  rcases List.mem_append.1 hm with hm | hm
  · exact (h d hd).notMem hword hmark hm
  · exact hspace (List.mem_singleton.1 hm)

theorem byteLength_marker (kind : MessageKind) : byteLength [kind.marker] = 1 := by
  cases kind <;> rfl

/-- Behind its marker, a trimmed text line loses nothing if no comment starts there. -/
theorem lineBody_of_trim_eq (h : ∀ c ∈ clauses, IsClauseWord c.word) {kind : MessageKind}
    {raw after : List Char} (htrim : trim raw = clauseFront clauses ++ kind.marker :: after)
    (hafter : ¬ ['/', '/'] <:+: after) :
    lineBody raw = clauseFront clauses ++ kind.marker :: after := by
  have hslash : '/' ∉ clauseFront clauses ++ [kind.marker] := by
    rw [List.mem_append, not_or]
    refine ⟨notMem_clauseFront h (by decide) (by decide) (by decide), ?_⟩
    cases kind <;> decide
  have hquote : '"' ∉ clauseFront clauses ++ [kind.marker] := by
    rw [List.mem_append, not_or]
    refine ⟨notMem_clauseFront h (by decide) (by decide) (by decide), ?_⟩
    cases kind <;> decide
  have hstrip : stripComment (clauseFront clauses ++ kind.marker :: after) =
      clauseFront clauses ++ kind.marker :: after := by
    rw [List.append_cons, stripComment, stripCommentFrom_append_of_notMem false after hslash,
      quotedAt_of_notMem hquote, stripCommentFrom_of_not_infix false hafter]
  rw [lineBody, htrim, hstrip, ← htrim]
  exact trimEnd_of_getLast (isBlank_getLast_trim _)

/-- What the reader takes of a text line. The space behind the marker goes if no text follows, and
the text is what stands behind that space. -/
theorem exists_lineBody_textLine (h : ∀ c ∈ clauses, IsClauseWord c.word) (ht : IsLineText text)
    (kind : MessageKind) :
    ∃ after, lineBody (textLine kind clauses text) =
        clauseFront clauses ++ kind.marker :: after ∧
      textFrom (byteLength (clauseFront clauses) + 1 + Layout.gapLength after)
        (clauseFront clauses ++ kind.marker :: after) = text.toList := by
  obtain ⟨hnewline, hcomment, hlast⟩ := ht
  obtain ⟨c, s, hline, hblank, -⟩ := head_clauseFront h kind (' ' :: text.toList)
  have hhead : ∀ c ∈ (textLine kind clauses text).head?, isBlank c = false := by
    intro d hd
    rw [textLine_eq, hline] at hd
    obtain rfl : c = d := by simpa using hd
    exact hblank
  cases htext : text.toList with
  | nil =>
    refine ⟨[], lineBody_of_trim_eq h ?_ (by decide), ?_⟩
    · have hspace : AllBlank [' '] := by
        intro d hd
        rw [List.mem_singleton.1 hd]
        decide
      have hmarker : isBlank kind.marker = false := Layout.isBlank_marker kind
      rw [trim, trimStart_of_head hhead, textLine_eq, htext, List.append_cons,
        trimEnd_append_of_allBlank _ hspace, trimEnd_concat _ hmarker]
    · have htextFrom := textFrom_byteLength (clauseFront clauses ++ [kind.marker]) []
      rw [byteLength_append, byteLength_marker, List.append_nil] at htextFrom
      exact htextFrom
  | cons d t =>
    refine ⟨' ' :: d :: t, lineBody_of_trim_eq h ?_ ?_, ?_⟩
    · have hend : ∀ c ∈ (textLine kind clauses text).getLast?, isBlank c = false := by
        intro c hc
        refine hlast c ?_
        rw [textLine_eq, htext] at hc
        rw [htext]
        simpa using hc
      rw [trim_of_ends hhead hend, textLine_eq, htext]
    · rw [htext] at hcomment
      intro hinfix
      rcases List.infix_cons_iff.1 hinfix with hprefix | hinfix
      · exact absurd (List.cons_prefix_cons.1 hprefix).1 (by decide)
      · exact hcomment hinfix
    · have htextFrom := textFrom_byteLength (clauseFront clauses ++ [kind.marker] ++ [' ']) (d :: t)
      rw [byteLength_append, byteLength_append, byteLength_marker] at htextFrom
      simp only [List.append_assoc, List.cons_append, List.nil_append] at htextFrom
      exact htextFrom

/-- **The reader takes the line for its clauses and its text.** -/
theorem ofRaw?_textLine (h : ∀ c ∈ clauses, ∀ f ∈ c.flags, IsName f) (ht : IsLineText text)
    (kind : MessageKind) (n : Nat) :
    ∃ source, CodeLine.ofRaw? n (textLine kind clauses text) =
      some ⟨n, source, [.message kind (clauses.map Guard.clause) text]⟩ := by
  have hwords : ∀ c ∈ clauses, IsClauseWord c.word := fun c hc => isClauseWord_word (h c hc)
  obtain ⟨after, hbody, htext⟩ := exists_lineBody_textLine hwords ht kind
  obtain ⟨ws, hws, hlayout⟩ := layout?_clauseFront hwords kind
  have hguards : ws.filterMap (fun w => Guard.ofWord? w.text) = clauses.map Guard.clause := by
    rw [← filterMap_ofWord?_word h, ← hws, List.filterMap_map]
    rfl
  refine ⟨lineBody (textLine kind clauses text), CodeLine.ofRaw?_eq_some_iff.2 ⟨?_, ?_⟩⟩
  · rw [hbody]
    simp
  · rw [hbody, Token.ofLine, hlayout after]
    simp only [hguards, htext, String.ofList_toList]

/-- The checks look for references in the clauses of a text line only. -/
theorem code_textLine (h : ∀ c ∈ clauses, IsClauseWord c.word) (ht : IsLineText text)
    (kind : MessageKind) (n : Nat) :
    (Line.ofRaw n (textLine kind clauses text)).code = clauseFront clauses ++ [kind.marker] := by
  have hraw : (Line.ofRaw n (textLine kind clauses text)).raw = textLine kind clauses text := by
    refine chop_of_getLast ?_
    rintro d hd rfl
    rw [textLine_eq] at hd
    cases htext : text.toList with
    | nil =>
      rw [htext] at hd
      exact absurd hd (by simp)
    | cons c t =>
      have hcr : isBlank '\r' = true := by decide
      have hblank := ht.2.2 '\r' (by rw [htext] at hd ⊢; simpa using hd)
      rw [hcr] at hblank
      exact absurd hblank (by decide)
  obtain ⟨ws, -, hlayout⟩ := layout?_clauseFront h kind
  have htextBefore := textBefore_byteLength (clauseFront clauses ++ [kind.marker])
    (' ' :: text.toList)
  rw [byteLength_append, byteLength_marker, ← List.append_cons] at htextBefore
  rw [Line.code, hraw, textLine_eq, hlayout]
  exact htextBefore

theorem keyword?_textLine (h : ∀ c ∈ clauses, IsClauseWord c.word) (kind : MessageKind) (n : Nat) :
    (Line.ofRaw n (textLine kind clauses text)).keyword? = none := by
  obtain ⟨c, s, hline, hblank, hupper⟩ := head_clauseFront h kind (' ' :: text.toList)
  have hhead : ∀ d ∈ (c :: s).head?, isBlank d = false := by
    intro d hd
    obtain rfl : c = d := by simpa using hd
    exact hblank
  rw [Line.keyword?, Line.trimmed_ofRaw, textLine_eq, hline, trim, trimStart_of_head hhead,
    trimEnd_cons hblank]
  exact Keyword.leading?_eq_none_of_head hupper _

theorem newline_notMem_textLine (h : ∀ c ∈ clauses, IsClauseWord c.word) (ht : IsLineText text)
    (kind : MessageKind) : '\n' ∉ textLine kind clauses text := by
  rw [textLine_eq, List.mem_append, List.mem_cons, List.mem_cons, not_or, not_or, not_or]
  refine ⟨notMem_clauseFront h (by decide) (by decide) (by decide), ?_, by decide, ht.1⟩
  cases kind <;> decide

end TextLine

/-! ## The lines of commands -/

/-- A line that a command is written on. -/
inductive IsCommandLine : List Char → Prop
  /-- A line with a keyword that declares nothing. -/
  | keyword (k : Keyword) (hk : k ∈ [.exec, .choice, .is, .goto, .ret, .back])
      {ws : List (List Char)} (hws : ∀ w ∈ ws, IsSolid w) : IsCommandLine (k.line ws)
  /-- A text line. -/
  | text (kind : MessageKind) {clauses : List Clause} {text : String}
      (hclauses : ∀ c ∈ clauses, ∀ f ∈ c.flags, IsName f) (htext : IsLineText text) :
      IsCommandLine (textLine kind clauses text)

section Names

variable {pages flags : List String} (hpages : ∀ name ∈ pages, IsName name)
  (hflags : ∀ name ∈ flags, IsName name)

include hflags in
theorem isName_of_conditions {conditions : List Condition}
    (h : ∀ c ∈ conditions, c.flags ⊆ flags) :
    ∀ c ∈ conditions.map Condition.clause, ∀ f ∈ c.flags, IsName f := by
  intro c hc f hf
  obtain ⟨d, hd, rfl⟩ := List.mem_map.1 hc
  exact hflags f (h d hd hf)

include hflags in
theorem Transition.WellFormed.isName {t : Transition} (h : t.WellFormed pages flags) :
    ∀ c ∈ t.clauses, ∀ f ∈ c.flags, IsName f := by
  intro c hc f hf
  rcases List.mem_append.1 hc with hc | hc
  · exact isName_of_conditions hflags h.conditions c hc f hf
  · obtain ⟨e, he, rfl⟩ := List.mem_map.1 hc
    exact hflags f (h.effects e he hf)

include hpages hflags

theorem Transition.WellFormed.isSolid {t : Transition} (h : t.WellFormed pages flags) :
    ∀ w ∈ t.words, IsSolid w := by
  intro w hw
  rcases List.mem_cons.1 hw with rfl | hw
  · exact (h.destination.isPlain hpages).isSolid
  · obtain ⟨c, hc, rfl⟩ := List.mem_map.1 hw
    exact (isClauseWord_word (h.isName hflags c hc)).isPlain.isSolid

theorem ChoiceOption.isSolid {o : ChoiceOption} (hlabel : o.HasLabel)
    (h : o.transition.WellFormed pages flags) : ∀ w ∈ o.label :: o.transition.words, IsSolid w := by
  intro w hw
  rcases List.mem_cons.1 hw with rfl | hw
  · exact hlabel.isSolid
  · exact h.isSolid hpages hflags w hw

theorem isSolid_exec {name : String} {args : List String} (hname : IsCommandName name)
    (h : ∀ a ∈ args, IsArgument pages flags a) :
    ∀ w ∈ ('#' :: name.toList) :: args.map String.toList, IsSolid w := by
  intro w hw
  rcases List.mem_cons.1 hw with rfl | hw
  · exact (isPlain_commandWord hname).isSolid
  · obtain ⟨a, ha, rfl⟩ := List.mem_map.1 hw
    exact (h a ha).isSolid hpages hflags

omit hpages hflags in
theorem isSolid_time (time : Option TimeLimit) :
    ∀ w ∈ time.toList.map TimeLimit.word, IsSolid w := by
  intro w hw
  obtain ⟨t, -, rfl⟩ := List.mem_map.1 hw
  exact t.isSolid_word

/-- **A command is written on such lines only.** -/
theorem Command.WellFormed.isCommandLine {c : Command} (h : c.WellFormed pages flags) :
    ∀ raw ∈ c.lines, IsCommandLine raw := by
  intro raw hraw
  cases c with
  | textLine kind conditions text =>
    rw [List.mem_singleton.1 hraw]
    exact .text kind (isName_of_conditions hflags h.1) h.2
  | choice time options =>
    rcases List.mem_cons.1 hraw with rfl | hraw
    · exact .keyword .choice (by decide) (isSolid_time time)
    · obtain ⟨o, ho, rfl⟩ := List.mem_map.1 hraw
      exact .keyword .is (by decide) (ChoiceOption.isSolid hpages hflags (h o ho).1 (h o ho).2)
  | goto t =>
    rw [List.mem_singleton.1 hraw]
    exact .keyword .goto (by decide) (Transition.WellFormed.isSolid hpages hflags h)
  | exec name args =>
    rw [List.mem_singleton.1 hraw]
    exact .keyword .exec (by decide) (isSolid_exec hpages hflags h.1 h.2)
  | pageEnd mode =>
    rw [List.mem_singleton.1 hraw]
    exact .keyword mode.keyword (by cases mode <;> decide) (by simp)
  | broken n source => exact absurd h id

end Names

theorem IsCommandLine.newline_notMem {raw : List Char} (h : IsCommandLine raw) : '\n' ∉ raw := by
  cases h with
  | keyword k hk hws => exact k.newline_notMem_line hws
  | text kind hclauses htext =>
    exact newline_notMem_textLine (fun c hc => isClauseWord_word (hclauses c hc)) htext kind

/-! ## The lines of a story -/

theorem isSolid_of_mem_singleton {w : List Char} (h : IsSolid w) : ∀ v ∈ [w], IsSolid v := by
  intro v hv
  rw [List.mem_singleton.1 hv]
  exact h

theorem isSolid_flagWords {flags : List String} (h : ∀ name ∈ flags, IsName name) :
    ∀ w ∈ flags.map flagWord, IsSolid w := by
  intro w hw
  obtain ⟨f, hf, rfl⟩ := List.mem_map.1 hw
  exact (isPlain_flagWord (h f hf)).isSolid

namespace Story

variable (s : Story)

theorem isName_of_mem_pages : ∀ name ∈ s.pages.map Page.name, IsName name := by
  intro name hname
  obtain ⟨p, hp, rfl⟩ := List.mem_map.1 hname
  exact s.isName_page p hp

theorem newline_notMem_of_mem_lines : ∀ raw ∈ s.lines, '\n' ∉ raw := by
  intro raw hraw
  rcases List.mem_cons.1 hraw with rfl | hraw
  · exact Keyword.define.newline_notMem_line
      (isSolid_of_mem_singleton (isSolid_quotation s.isQuotable_name))
  · rcases List.mem_append.1 hraw with hraw | hraw
    · unfold flagLines at hraw
      split at hraw
      next => exact absurd hraw (by simp)
      next =>
        rw [List.mem_singleton.1 hraw]
        exact Keyword.flag.newline_notMem_line (isSolid_flagWords s.isName_flag)
    · obtain ⟨p, hp, hraw⟩ := List.mem_flatMap.1 hraw
      rcases List.mem_cons.1 hraw with rfl | hraw
      · exact Keyword.page.newline_notMem_line
          (isSolid_of_mem_singleton (isPlain_pageWord (s.isName_page p hp)).isSolid)
      · obtain ⟨c, hc, hraw⟩ := List.mem_flatMap.1 hraw
        exact ((s.wellFormed p hp c hc).isCommandLine s.isName_of_mem_pages s.isName_flag raw
          hraw).newline_notMem

/-- **The lines of the text are the lines that were written.** -/
theorem lines_text : Text.lines s.text.toList = s.lines := by
  rw [text, String.toList_ofList, Text.lines]
  exact pieces_intercalate (by simp [lines]) s.newline_notMem_of_mem_lines

end Story

end Gamebook
