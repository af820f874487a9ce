import Gamebook.Proofs.Check.Accepted
import Gamebook.Proofs.Check.Origin
import Gamebook.Proofs.Pattern.Join
import Gamebook.Proofs.Place.Message
import Gamebook.Proofs.Simulation.Report

/-!
Gamebook.Proofs.Soundness.Join — which joined clauses are reported.

Clauses on one line stand apart, with blanks between them. A report says so where one is joined to
another by a comma, but only the code of the line is searched (`reported_join_iff`). Behind IS and TO
all of an argument shows there. On a line without keyword it hangs on what the line is taken for. The
other clause may have a hyphen in its name, and a hyphen behind a clause-shaped word is the marker of
a text line: `true:$a,true-or:$b> hi` is read as the clause `true:$a,true`, the marker `-` and the
text `or:$b> hi`. The code of a text line ends at its marker, so the other clause is cut off.

`reported_joined_iff` is the result: joined clauses are reported, except on a line without keyword
where the name of the other clause has a hyphen. `not_reported_hyphenText` is such a line.
-/

namespace Gamebook

open Text

/-- What is said about a clause of this kind with another clause behind a comma. -/
def ClauseKind.joinCause : ClauseKind → Cause
  | condition _ => .joinedConditions
  | effect _ => .joinedEffects

/-- The words of a line that are to be clauses: the arguments of IS and TO, and the first word of a
line without keyword. -/
def Line.clauseWords (line : Line) : List (List Char) :=
  match line.keyword? with
  | none => (words (lineBody line.raw)).take 1
  | some k => if k = .is ∨ k = .goto then (line.arguments k).map Segment.text else []

/-! ## Marks and messages -/

theorem exists_mem_firstMark_iff {line : Line} {p : Pattern} {cause c : Cause} :
    (∃ m ∈ firstMark line p cause, m.cause = c) ↔ line.hits p ≠ [] ∧ cause = c := by
  cases h : line.hits p with
  | nil => simp [firstMark, h]
  | cons hit hits => simp [firstMark, h, Line.markCaptured, Line.markSegment]

/-- A family of clauses has a mark exactly if its search finds something. -/
theorem exists_mem_joinMarks_iff {line : Line} {k : ClauseKind} :
    (∃ m ∈ joinMarks line, m.cause = k.joinCause) ↔ line.hits k.joinPattern ≠ [] := by
  simp only [joinMarks, List.mem_append, or_and_right, exists_or, exists_mem_firstMark_iff]
  cases k <;> simp [ClauseKind.joinCause, ClauseKind.joinPattern]

/-- No other error has the message of joined clauses. -/
theorem Cause.eq_joinCause {c : Cause} {w : List Char} (hw : c.StandsOn w) {k : ClauseKind}
    (hs : c.severity = .error) (h : c.message = k.joinCause.message) : c = k.joinCause := by
  cases k with
  | condition =>
    have hinitial : c.initial? = some 'c' := by
      refine initial?_eq_some hw ?_ (by decide) (by decide)
      rw [h]
      exact head?_toList_append (head?_literal _ _)
    cases c with
    | joinedConditions => rfl
    | misplacedCondition => exact absurd hs (by decide)
    | _ => exact absurd hinitial (by simp)
  | effect =>
    have hinitial : c.initial? = some 'e' := by
      refine initial?_eq_some hw ?_ (by decide) (by decide)
      rw [h]
      exact head?_toList_append (head?_literal _ _)
    cases c with
    | joinedEffects => rfl
    | misplacedEffect => exact absurd hs (by decide)
    | _ => exact absurd hinitial (by simp)

section

variable {text : String} {n : Nat} {raw : List Char}

/-- **Joined clauses are reported on a line of code exactly if its code shows some.** -/
theorem reported_join_iff (catalog : Catalog) (hmem : (n, raw) ∈ numberedLines text.toList)
    {k : ClauseKind} :
    Reported catalog text n .error k.joinCause.message ↔
      (Line.ofRaw n raw).isCode = true ∧ (Line.ofRaw n raw).hits k.joinPattern ≠ [] := by
  have hseverity : k.joinCause.severity = .error := by cases k <;> rfl
  have horigin : k.joinCause.origin = .join := by cases k <;> rfl
  have hheader : Cause.noHeader.message ≠ k.joinCause.message := by
    cases k with
    | condition => show _ ≠ Cause.joinedConditions.message; decide
    | effect => show _ ≠ Cause.joinedEffects.message; decide
  rw [reported_iff_exists_mark fun _ => hheader, ← exists_mem_joinMarks_iff]
  constructor
  · rintro ⟨m, hm, hnumber, hs, hmessage⟩
    obtain ⟨⟨w, -, -, hw⟩, -⟩ := exists_line_of_mem_allMarks hm
    have hcause : m.cause = k.joinCause := Cause.eq_joinCause hw hs hmessage
    have hjoin : m.cause.origin = .join := by rw [hcause, horigin]
    rw [allMarks, List.mem_append, List.mem_append] at hm
    rcases hm with (hm | hm) | hm
    · exact absurd hm ((comesFrom_repeatedHeaderMarks _).notMem (by simp [hjoin]))
    · exact absurd hm ((comesFrom_duplicateMarks _ _).notMem (by simp [hjoin]))
    · obtain ⟨before, after, hsplit⟩ := List.append_of_mem hmem
      have hline := mem_lineMarks_of_mem_marksFrom hsplit hm hnumber
      exact ⟨(mem_lineMarks_iff.1 hline).1, m, mem_joinMarks_of_origin hline hjoin, hcause⟩
  · rintro ⟨hcode, m, hm, hcause⟩
    obtain ⟨s, hs⟩ := exists_checkState catalog hmem
    have hline : m ∈ lineMarks (Declared.ofLines catalog (Line.ofText text.toList)) s
        (Line.ofRaw n raw) := mem_lineMarks_iff.2 ⟨hcode, Or.inr (Or.inr (Or.inl hm))⟩
    refine ⟨m, hs m hline, ?_, by rw [hcause, hseverity], by rw [hcause]⟩
    rw [line_eq_of_mem_lineMarks hline]
    rfl

end

/-! ## What looks like a clause -/

/-- Behind a comma, small letters look like one more flag. -/
theorem isFlagListChar_of_comma {flags name : List Char}
    (hflags : ∀ c ∈ flags, isFlagListChar c = true) (hname : ∀ c ∈ name, c.isLower = true) :
    ∀ c ∈ flags ++ ',' :: name, isFlagListChar c = true := by
  intro c hc
  rcases List.mem_append.1 hc with hc | hc
  · exact hflags c hc
  · rcases List.mem_cons.1 hc with rfl | hc
    · decide
    · simp [isFlagListChar, isWordChar_of_isLower (hname c hc)]

/-- Behind a colon a clause-shaped word does not end, so this is no text line. -/
theorem layout?_eq_none_of_colon {lead v r : List Char} (hlead : AllBlank lead)
    (hv : IsClauseWord v) : layout? (lead ++ v ++ ':' :: r) = none := by
  have hcolon : ∀ c ∈ (':' :: r).head?, isFlagListChar c = false := by
    intro c hc
    obtain rfl : ':' = c := by simpa using hc
    decide
  have hends : ¬ Layout.wordEnds (':' :: r) = true := by
    show ¬ (isBlank ':' || (MessageKind.ofMarker? ':').isSome) = true
    decide
  rw [layout?, Layout.layoutFrom?_clauseWord hlead hv hcolon, if_neg hends]

/-! ## What shows of joined clauses -/

namespace Line

variable {n : Nat} {raw w : List Char} {k j : ClauseKind}

/-- Joined clauses are found behind blanks, also if quoted text follows. -/
theorem hits_ne_nil {line : Line} {a b : List Char}
    (hcode : line.code = a ++ blankQuotedFrom false w ++ b)
    (ha : ∀ c ∈ a.getLast?, isBlank c = true) (h : IsJoined k j w) :
    line.hits k.joinPattern ≠ [] := by
  refine Pattern.scan_join_ne_nil_iff.2 ⟨a, blankQuotedFrom false w ++ b, ?_, ?_, ?_⟩
  · rw [hcode, List.append_assoc]
  · exact fun c hc => separates_of_isBlank (ha c hc)
  · exact ⟨k, k.mem_family, j, h.blankQuoted_append b⟩

/-- All of an argument shows. -/
theorem hits_ne_nil_of_mem_arguments {keyword : Keyword} {a : Segment}
    (hk : (ofRaw n raw).keyword? = some keyword) (ha : a ∈ (ofRaw n raw).arguments keyword)
    (h : IsJoined k j a.text) : (ofRaw n raw).hits k.joinPattern ≠ [] := by
  obtain ⟨p, r, r', -, hcode, -, -, -, hfront⟩ := exists_append_of_mem_arguments hk ha
  exact hits_ne_nil hcode hfront h

/-- The first word of a line, in the line and in what a comment leaves of it. -/
theorem exists_append_of_words {ws : List (List Char)} (h : words (lineBody raw) = w :: ws) :
    ∃ lead r r', AllBlank lead ∧ (ofRaw n raw).raw = lead ++ w ++ r ∧
      stripComment (ofRaw n raw).raw = lead ++ w ++ r' := by
  obtain ⟨v, hv, -⟩ := exists_append_of_words_eq_cons (isBlank_head_lineBody raw) h
  obtain ⟨lead, t, hraw, hlead, ht, -⟩ := exists_raw n raw
  obtain ⟨u, hu, -⟩ := exists_trimEnd_append (stripComment (trim raw))
  obtain ⟨x, hx, -⟩ := exists_stripCommentFrom_append false (trim raw) ht
  have hstrip : stripComment (ofRaw n raw).raw = lead ++ w ++ (v ++ u ++ x) := by
    rw [hraw, stripComment, List.append_assoc,
      stripCommentFrom_append_of_notMem _ _ hlead.slash_notMem,
      quotedAt_of_notMem hlead.quote_notMem, hx, ← stripComment, hu, ← lineBody, hv]
    simp only [List.append_assoc]
  obtain ⟨y, hy⟩ := stripCommentFrom_prefix false (ofRaw n raw).raw
  refine ⟨lead, v ++ u ++ x ++ y, v ++ u ++ x, hlead, ?_, hstrip⟩
  rw [← hy, ← stripComment, hstrip]
  simp only [List.append_assoc]

/-- Without a hyphen in the name of the other clause, the line is no text line, and all of its first
word shows. -/
theorem hits_ne_nil_of_words {ws : List (List Char)} (hwords : words (lineBody raw) = w :: ws)
    (h : IsJoined k j w) (hj : '-' ∉ j.letters) : (ofRaw n raw).hits k.joinPattern ≠ [] := by
  obtain ⟨lead, r, r', hlead, hraw, hstrip⟩ := exists_append_of_words (n := n) hwords
  have hlayout : layout? (ofRaw n raw).raw = none := by
    obtain ⟨flags, rest, -, hflags, rfl⟩ := h
    have hlower : ∀ c ∈ j.letters, c.isLower = true := fun c hc =>
      (j.plain_of_mem_letters c hc).resolve_right fun he => hj (he ▸ hc)
    have hword : IsClauseWord (k.opening ++ (flags ++ ',' :: j.letters)) :=
      Or.inr ⟨k, _, rfl, isFlagListChar_of_comma hflags hlower⟩
    have hcut := layout?_eq_none_of_colon (r := rest ++ r) hlead hword
    rw [hraw]
    simpa [ClauseKind.opening] using hcut
  refine hits_ne_nil (a := lead) (b := blankQuotedFrom (quotedAt false w) r') ?_ ?_ h
  · rw [code_of_layout?_eq_none hlayout, hstrip, blankQuoted, blankQuotedFrom_append,
      blankQuotedFrom_append, blankQuotedFrom_of_notMem hlead.quote_notMem, quotedAt_append,
      quotedAt_of_notMem hlead.quote_notMem]
  · exact fun c hc => hlead c (List.mem_of_getLast? hc)

/-- With a hyphen in the name of the other clause, this is a text line, and its code ends at the
hyphen. -/
theorem exists_code_of_words {ws : List (List Char)} (hwords : words (lineBody raw) = w :: ws)
    (h : IsJoined k j w) (hj : '-' ∈ j.letters) :
    ∃ lead flags, AllBlank lead ∧ (∀ c ∈ flags, isFlagListChar c = true) ∧
      (ofRaw n raw).code = lead ++ (k.opening ++ flags) ++ ['-'] := by
  obtain ⟨lead, r, -, hlead, hraw, -⟩ := exists_append_of_words (n := n) hwords
  obtain ⟨flags, rest, -, hflags, rfl⟩ := h
  obtain ⟨front, back, hletters, hfront⟩ := List.eq_append_cons_of_mem hj
  have hlower : ∀ c ∈ front, c.isLower = true := by
    intro c hc
    have hplain := j.plain_of_mem_letters c (by rw [hletters]; simp [hc])
    exact hplain.resolve_right fun he => hfront (he ▸ hc)
  have hname := isFlagListChar_of_comma hflags hlower
  have hrun : ClauseRun 0 (lead ++ (k.opening ++ (flags ++ ',' :: front)) ++ [])
      [⟨0 + byteLength lead, k.opening ++ (flags ++ ',' :: front)⟩] :=
    .word hlead (Or.inr ⟨k, _, rfl, hname⟩) (by simp [StopsWord]) (.blanks (by simp [AllBlank]))
  rw [List.append_nil] at hrun
  have hmarker : (ofRaw n raw).raw = lead ++ (k.opening ++ (flags ++ ',' :: front)) ++
      MessageKind.append.marker :: (back ++ ':' :: (rest ++ r)) := by
    rw [hraw, ClauseKind.opening, ClauseKind.opening, hletters]
    simp [MessageKind.marker]
  exact ⟨lead, flags ++ ',' :: front, hlead, hname, code_of_clauseRun hrun hmarker⟩

/-- One colon is left, which is too few for two clauses. -/
theorem hits_eq_nil_of_words {ws : List (List Char)} (hwords : words (lineBody raw) = w :: ws)
    (h : IsJoined k j w) (hj : '-' ∈ j.letters) (i : ClauseKind) :
    (ofRaw n raw).hits i.joinPattern = [] := by
  obtain ⟨lead, flags, hlead, hflags, hcode⟩ := exists_code_of_words (n := n) hwords h hj
  have hcolons : (ofRaw n raw).code.count ':' = 1 := by
    have hletters : k.letters.count ':' = 0 := List.count_eq_zero.2 k.colon_notMem_letters
    have hleadCount : lead.count ':' = 0 :=
      List.count_eq_zero.2 fun hm => absurd (hlead _ hm) (by decide)
    have hflagsCount : flags.count ':' = 0 :=
      List.count_eq_zero.2 fun hm => absurd (hflags _ hm) (by decide)
    simp [hcode, ClauseKind.opening, List.count_append, hletters, hleadCount, hflagsCount]
  by_contra hne
  obtain ⟨a, v, hsplit, -, i, -, j, hjoined⟩ := Pattern.scan_join_ne_nil_iff.1 hne
  have htwo := hjoined.two_le_count_colon
  rw [hsplit, List.count_append] at hcolons
  omega

/-- A word that is to be a clause is an argument, or the first word of a line without keyword. -/
theorem mem_clauseWords (hw : w ∈ (ofRaw n raw).clauseWords) :
    (∃ keyword, (ofRaw n raw).keyword? = some keyword ∧
        ∃ a ∈ (ofRaw n raw).arguments keyword, a.text = w) ∨
      (ofRaw n raw).keyword? = none ∧ ∃ ws, words (lineBody raw) = w :: ws := by
  unfold clauseWords at hw
  split at hw
  next hkeyword =>
    rw [lineBody_raw] at hw
    cases hwords : words (lineBody raw) with
    | nil => exact absurd hw (by simp [hwords])
    | cons v ws =>
      obtain rfl : w = v := by simpa [hwords] using hw
      exact Or.inr ⟨hkeyword, ws, rfl⟩
  next keyword hkeyword =>
    rw [List.mem_ite_nil_right] at hw
    exact Or.inl ⟨keyword, hkeyword, List.mem_map.1 hw.2⟩

/-- Where a word is to be a clause, the line is code. -/
theorem isCode_of_mem_clauseWords (hw : w ∈ (ofRaw n raw).clauseWords) :
    (ofRaw n raw).isCode = true := by
  rcases mem_clauseWords hw with ⟨keyword, hkeyword, -⟩ | ⟨-, ws, hwords⟩
  · exact isCode_of_keyword? hkeyword
  · rw [isCode_iff]
    intro hnil
    rw [hnil] at hwords
    exact absurd hwords (by simp)

/-- **Joined clauses show**, except on a line without keyword where the name of the other clause has a
hyphen. -/
theorem hits_joinPattern_ne_nil_iff (hw : w ∈ (ofRaw n raw).clauseWords) (h : IsJoined k j w) :
    (ofRaw n raw).hits k.joinPattern ≠ [] ↔ ((ofRaw n raw).keyword? = none → '-' ∉ j.letters) := by
  rcases mem_clauseWords hw with ⟨keyword, hkeyword, a, ha, rfl⟩ | ⟨hkeyword, ws, hwords⟩
  · refine iff_of_true (hits_ne_nil_of_mem_arguments hkeyword ha h) fun hnone => ?_
    rw [hkeyword] at hnone
    exact absurd hnone (by simp)
  · constructor
    · exact fun hhits _ hj => hhits (hits_eq_nil_of_words hwords h hj k)
    · exact fun hj => hits_ne_nil_of_words hwords h (hj hkeyword)

end Line

/-! ## The result -/

/-- **Joined clauses are reported.** A clause with another clause behind a comma, as an argument of IS
or TO or as the first word of a line without keyword, has an error of its family on its line, except
on a line without keyword where the name of the other clause has a hyphen. Then there is none. -/
theorem reported_joined_iff (catalog : Catalog) {text : String} {n : Nat} {raw : List Char}
    (hmem : (n, raw) ∈ numberedLines text.toList) {w : List Char}
    (hw : w ∈ (Line.ofRaw n raw).clauseWords) {k j : ClauseKind} (h : IsJoined k j w) :
    Reported catalog text n .error k.joinCause.message ↔
      ((Line.ofRaw n raw).keyword? = none → '-' ∉ j.letters) := by
  rw [reported_join_iff catalog hmem, Line.hits_joinPattern_ne_nil_iff hw h]
  exact and_iff_right (Line.isCode_of_mem_clauseWords hw)

/-- A text line and an option to go on, each with two clauses in one. -/
def commaText : String :=
  "DEFINE \"t\"\nFLAG $a $b\nPAGE @p\ntrue:$a,false:$b> hi\nTO @p to-true:$a,to-false:$b"

/-- The lines are in the text, and their words are to be clauses. -/
theorem clauseWords_commaText :
    (4, "true:$a,false:$b> hi".toList) ∈ numberedLines commaText.toList ∧
      "true:$a,false:$b>".toList ∈ (Line.ofRaw 4 "true:$a,false:$b> hi".toList).clauseWords ∧
    (5, "TO @p to-true:$a,to-false:$b".toList) ∈ numberedLines commaText.toList ∧
      "to-true:$a,to-false:$b".toList ∈
        (Line.ofRaw 5 "TO @p to-true:$a,to-false:$b".toList).clauseWords ∧
      (Line.ofRaw 5 "TO @p to-true:$a,to-false:$b".toList).keyword? = some .goto := by
  decide +kernel

/-- Both are reported. Behind TO a hyphen in the name of the other clause does no harm. -/
theorem reported_joined_iff_commaText :
    Reported .empty commaText 4 .error Cause.joinedConditions.message ∧
      Reported .empty commaText 5 .error Cause.joinedEffects.message := by
  obtain ⟨hmem, hw, hmem', hw', hkeyword⟩ := clauseWords_commaText
  have hconditions : IsJoined (.condition .allTrue) (.condition .allFalse)
      "true:$a,false:$b>".toList := ⟨['$', 'a'], ['$', 'b', '>'], by decide, by decide, rfl⟩
  have heffects : IsJoined (.effect .setTrue) (.effect .setFalse)
      "to-true:$a,to-false:$b".toList := ⟨['$', 'a'], ['$', 'b'], by decide, by decide, rfl⟩
  constructor
  · exact (reported_joined_iff .empty hmem hw hconditions).2 fun _ => by decide
  · refine (reported_joined_iff .empty hmem' hw' heffects).2 fun hnone => ?_
    rw [hkeyword] at hnone
    exact absurd hnone (by simp)

/-- The same text line, but the name of the other clause has a hyphen. -/
def hyphenText : String := "DEFINE \"t\"\nFLAG $a $b\nPAGE @p\ntrue:$a,true-or:$b> hi"

/-- **Nothing is said about the joined clauses**: the text is fine for the checks. -/
theorem not_reported_hyphenText :
    (4, "true:$a,true-or:$b> hi".toList) ∈ numberedLines hyphenText.toList ∧
      "true:$a,true-or:$b>".toList ∈ (Line.ofRaw 4 "true:$a,true-or:$b> hi".toList).clauseWords ∧
      IsJoined (.condition .allTrue) (.condition .anyTrue) "true:$a,true-or:$b>".toList ∧
      ¬ Reported .empty hyphenText 4 .error Cause.joinedConditions.message := by
  have htext : (4, "true:$a,true-or:$b> hi".toList) ∈ numberedLines hyphenText.toList ∧
      "true:$a,true-or:$b>".toList ∈ (Line.ofRaw 4 "true:$a,true-or:$b> hi".toList).clauseWords ∧
      diagnostics .empty hyphenText = [] := by
    decide +kernel
  obtain ⟨hmem, hw, hdiagnostics⟩ := htext
  refine ⟨hmem, hw, ⟨['$', 'a'], ['$', 'b', '>'], by decide, by decide, rfl⟩, ?_⟩
  rintro ⟨d, hd, -⟩
  rw [hdiagnostics] at hd
  exact absurd hd (by simp)

end Gamebook
