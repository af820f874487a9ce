import Gamebook.Check.Line
import Gamebook.Proofs.Script.Layout
import Gamebook.Proofs.Script.Token
import Gamebook.Script.Reader

/-!
Gamebook.Proofs.Check.Line — one line, as the reader and as the checks see it.

The reader trims a line, cuts its comment and then takes words; the checks keep the line as it is
and look at the places of words in it. What the reader takes is the middle of the line
(`exists_append_lineBody`), and nothing but blanks and the comment is left out
(`exists_stripComment_eq_append`). So both see the same:

* `isCode_iff`: a line is code for the checks exactly when it is a line of code for the reader.
* `ofRaw?_of_keyword?` and `keyword?_of_opensWith`: they see the same keyword and the same
  arguments, unless a comment follows the keyword at once.
-/

namespace Gamebook

open Text

/-! ## Lines of a text -/

theorem mem_codeLines {text : List Char} {line : CodeLine} :
    line ∈ codeLines text ↔
      ∃ n raw, (n, raw) ∈ numberedLines text ∧ CodeLine.ofRaw? n raw = some line := by
  rw [codeLines, List.mem_filterMap]
  constructor
  · rintro ⟨⟨n, raw⟩, hmem, hline⟩
    exact ⟨n, raw, hmem, hline⟩
  · rintro ⟨n, raw, hmem, hline⟩
    exact ⟨(n, raw), hmem, hline⟩

/-- The lines of code among the lines. -/
def codeLinesOf (lines : List (Nat × List Char)) : List CodeLine :=
  lines.filterMap fun (n, raw) => CodeLine.ofRaw? n raw

theorem mem_of_mem_numberFrom : ∀ {ls : List (List Char)} {k n : Nat} {raw : List Char},
    (n, raw) ∈ numberFrom k ls → raw ∈ ls
  | [], _, _, _, h => by simp [numberFrom] at h
  | l :: ls, k, n, raw, h => by
      rw [numberFrom] at h
      rcases List.mem_cons.1 h with h | h
      · rw [(Prod.mk.inj h).2]
        exact List.mem_cons_self
      · exact List.mem_cons_of_mem _ (mem_of_mem_numberFrom h)

theorem numberFrom_append (b : List (List Char)) : ∀ (n : Nat) (a : List (List Char)),
    numberFrom n (a ++ b) = numberFrom n a ++ numberFrom (n + a.length) b
  | _, [] => rfl
  | n, l :: a => by
      have ih := numberFrom_append b (n + 1) a
      have hn : n + 1 + a.length = n + (l :: a).length := by rw [List.length_cons]; omega
      rw [hn] at ih
      exact congrArg ((n, l) :: ·) ih

theorem map_fst_numberFrom : ∀ (n : Nat) (ls : List (List Char)),
    (numberFrom n ls).map Prod.fst = List.range' n ls.length
  | _, [] => rfl
  | n, l :: ls => by
      rw [numberFrom, List.map_cons, map_fst_numberFrom (n + 1) ls]
      rfl

theorem codeLinesOf_numberFrom_append (n : Nat) (a b : List (List Char)) :
    codeLinesOf (numberFrom n (a ++ b)) =
      codeLinesOf (numberFrom n a) ++ codeLinesOf (numberFrom (n + a.length) b) := by
  rw [codeLinesOf, numberFrom_append, List.filterMap_append]
  rfl

theorem codeLinesOf_numberFrom_cons {n : Nat} {raw : List Char} {line : CodeLine}
    (h : CodeLine.ofRaw? n raw = some line) (raws : List (List Char)) :
    codeLinesOf (numberFrom n (raw :: raws)) = line :: codeLinesOf (numberFrom (n + 1) raws) :=
  List.filterMap_cons_some h

theorem codeLinesOf_numberFrom_cons_none {n : Nat} {raw : List Char}
    (h : CodeLine.ofRaw? n raw = none) (raws : List (List Char)) :
    codeLinesOf (numberFrom n (raw :: raws)) = codeLinesOf (numberFrom (n + 1) raws) :=
  List.filterMap_cons_none h

namespace Line

theorem mem_ofText {text : List Char} {line : Line} :
    line ∈ ofText text ↔ ∃ n raw, (n, raw) ∈ numberedLines text ∧ line = ofRaw n raw := by
  rw [ofText, List.mem_map]
  constructor
  · rintro ⟨⟨n, raw⟩, hmem, rfl⟩
    exact ⟨n, raw, hmem, rfl⟩
  · rintro ⟨n, raw, hmem, rfl⟩
    exact ⟨(n, raw), hmem, rfl⟩

/-- What has the number of a line comes from that line. -/
theorem filter_flatMap_ofText {α : Type} {f : Line → List α} {number : α → Nat}
    (hnumber : ∀ line, ∀ a ∈ f line, number a = line.number) {text raw : List Char} {n : Nat}
    (h : (n, raw) ∈ numberedLines text) :
    ((ofText text).flatMap f).filter (fun a => number a = n) = f (ofRaw n raw) := by
  have hdistinct : ((numberedLines text).map Prod.fst).Nodup := by
    rw [numberedLines, map_fst_numberFrom]
    exact List.nodup_range'
  have hself : ∀ m raw', (f (ofRaw m raw')).filter (fun a => number a = n) =
      if m = n then f (ofRaw m raw') else [] := by
    intro m raw'
    split
    next hm => exact List.filter_eq_self.2 fun a ha => by simp [hnumber _ a ha, ofRaw, hm]
    next hm => exact List.filter_eq_nil_iff.2 fun a ha => by simp [hnumber _ a ha, ofRaw, hm]
  rw [ofText, List.flatMap_map, List.filter_flatMap]
  simp only [hself]
  generalize numberedLines text = ps at h hdistinct
  induction ps with
  | nil => exact absurd h List.not_mem_nil
  | cons p ps ih =>
    obtain ⟨m, raw'⟩ := p
    rw [List.map_cons, List.nodup_cons] at hdistinct
    rw [List.flatMap_cons]
    rcases List.mem_cons.1 h with heq | hmem
    · obtain ⟨rfl, rfl⟩ := Prod.mk.inj heq
      have hrest : (ps.flatMap fun q => if q.1 = n then f (ofRaw q.1 q.2) else []) = [] := by
        refine List.flatMap_eq_nil_iff.2 fun q hq => if_neg fun hnumber => ?_
        exact hdistinct.1 (List.mem_map.2 ⟨q, hq, hnumber⟩)
      rw [if_pos rfl, hrest, List.append_nil]
    · have hne : m ≠ n := fun hm => hdistinct.1 (List.mem_map.2 ⟨_, hmem, hm.symm⟩)
      rw [if_neg hne, List.nil_append, ih hmem hdistinct.2]

@[simp] theorem trimmed_ofRaw (n : Nat) (raw : List Char) : (ofRaw n raw).trimmed = trim raw :=
  trim_chop raw

/-- A line is its blank lead, its trimmed middle and a blank end. -/
theorem exists_raw (n : Nat) (raw : List Char) :
    ∃ lead t, (ofRaw n raw).raw = lead ++ trim raw ++ t ∧ AllBlank lead ∧ AllBlank t ∧
      (ofRaw n raw).indent = byteLength lead := by
  obtain ⟨t, ht, hblank⟩ := exists_trim (ofRaw n raw).raw
  refine ⟨_, t, ?_, allBlank_takeWhile _, hblank, rfl⟩
  have htrim : trim (ofRaw n raw).raw = trim raw := trimmed_ofRaw n raw
  rw [htrim] at ht
  exact ht

end Line

/-! ## Lines of code -/

/-- What the reader takes of a line is a beginning of it. -/
theorem exists_trim_eq_lineBody_append (raw : List Char) : ∃ t, trim raw = lineBody raw ++ t := by
  obtain ⟨t, ht, -⟩ := exists_trimEnd_append (stripComment (trim raw))
  obtain ⟨u, hu⟩ := stripCommentFrom_prefix false (trim raw)
  refine ⟨t ++ u, ?_⟩
  rw [← List.append_assoc, lineBody, ← ht]
  exact hu.symm

/-- A line is its blank lead, what the reader takes of it, and a rest. -/
theorem exists_append_lineBody (raw : List Char) :
    ∃ rest, raw = raw.takeWhile isBlank ++ lineBody raw ++ rest := by
  obtain ⟨t, hraw, -⟩ := exists_trim raw
  obtain ⟨u, hu⟩ := exists_trim_eq_lineBody_append raw
  refine ⟨u ++ t, ?_⟩
  conv_lhs => rw [hraw, hu]
  simp only [List.append_assoc]

/-- Without its comment, a line is its blank lead, what the reader takes of it, and a blank end. -/
theorem exists_stripComment_eq_append (raw : List Char) :
    ∃ u, AllBlank u ∧ stripComment raw = raw.takeWhile isBlank ++ lineBody raw ++ u := by
  have hlead := allBlank_takeWhile raw
  obtain ⟨t, hraw, ht⟩ := exists_trim raw
  obtain ⟨v, hv, hvblank⟩ := exists_stripCommentFrom_append false (trim raw) ht
  obtain ⟨x, hx, hxblank⟩ := exists_trimEnd_append (stripComment (trim raw))
  refine ⟨x ++ v, fun c hc => (List.mem_append.1 hc).elim (hxblank c) (hvblank c), ?_⟩
  calc stripComment raw
      = stripComment (raw.takeWhile isBlank ++ (trim raw ++ t)) := by
        rw [← List.append_assoc, ← hraw]
    _ = raw.takeWhile isBlank ++ (stripComment (trim raw) ++ v) := by
        rw [stripComment, stripCommentFrom_append_of_notMem _ _ hlead.slash_notMem,
          quotedAt_of_notMem hlead.quote_notMem, hv, stripComment]
    _ = raw.takeWhile isBlank ++ lineBody raw ++ (x ++ v) := by
        rw [hx, ← lineBody]
        simp only [List.append_assoc]

/-- The carriage return at the end of a line does not matter to the reader. -/
theorem Line.lineBody_raw (n : Nat) (raw : List Char) :
    lineBody (ofRaw n raw).raw = lineBody raw := by
  rw [lineBody, lineBody, ← trimmed, trimmed_ofRaw]

/-- Nothing is left of a line exactly when it is blank or a comment. -/
theorem lineBody_eq_nil_iff {raw : List Char} :
    lineBody raw = [] ↔ trim raw = [] ∨ ∃ r, trim raw = '/' :: '/' :: r := by
  rw [lineBody]
  cases htrim : trim raw with
  | nil => exact ⟨fun _ => Or.inl rfl, fun _ => rfl⟩
  | cons c s =>
    have hc : isBlank c = false := isBlank_head_trim raw c (by rw [htrim]; rfl)
    rw [stripComment, stripCommentFrom]
    split
    next h =>
      simp only [Bool.not_false, Bool.true_and, Bool.and_eq_true, beq_iff_eq] at h
      obtain ⟨rfl, hs⟩ := h
      obtain ⟨r, rfl⟩ := List.head?_eq_some_iff.1 hs
      exact ⟨fun _ => Or.inr ⟨r, rfl⟩, fun _ => rfl⟩
    next h =>
      rw [trimEnd_cons hc]
      refine ⟨fun hn => absurd hn (by simp), ?_⟩
      rintro (hnil | ⟨r, hr⟩)
      · exact absurd hnil (by simp)
      · obtain ⟨rfl, rfl⟩ := List.cons.inj hr
        exact absurd rfl h

theorem isBlank_head_lineBody (raw : List Char) :
    ∀ c ∈ (lineBody raw).head?, isBlank c = false := by
  intro c hc
  obtain ⟨t, ht⟩ := exists_trim_eq_lineBody_append raw
  refine isBlank_head_trim raw c ?_
  rw [ht, List.head?_append, Option.mem_def.1 hc]
  rfl

theorem Line.isCode_iff {n : Nat} {raw : List Char} :
    (Line.ofRaw n raw).isCode = true ↔ lineBody raw ≠ [] := by
  rw [ne_eq, lineBody_eq_nil_iff, not_or, Line.isCode, Line.trimmed_ofRaw, Bool.and_eq_true,
    bne_iff_ne, Bool.not_eq_true', ← Bool.not_eq_true, startsWith_iff]
  rfl

namespace CodeLine

theorem ofRaw?_eq_some_iff {n : Nat} {raw : List Char} {line : CodeLine} :
    ofRaw? n raw = some line ↔
      lineBody raw ≠ [] ∧ line = ⟨n, lineBody raw, Token.ofLine (lineBody raw)⟩ := by
  rw [ofRaw?]
  split
  next h => simp [h]
  next h => simp [h, eq_comm]

theorem ofRaw?_eq_none_iff {n : Nat} {raw : List Char} :
    ofRaw? n raw = none ↔ (Line.ofRaw n raw).isCode = false := by
  rw [← Bool.not_eq_true, Line.isCode_iff, not_not, ofRaw?]
  split <;> simp_all

end CodeLine

/-! ## Keywords -/

theorem Line.opens_trimmed_iff {line : Line} {k : Keyword} :
    k.opens line.trimmed = true ↔ line.keyword? = some k :=
  Keyword.leading?_eq_some_iff.symm

/-- Behind a keyword, a line goes on with a blank, if it goes on. -/
theorem Line.keyword?_eq_some_iff {n : Nat} {raw : List Char} {k : Keyword} :
    (Line.ofRaw n raw).keyword? = some k ↔ ∃ r, trim raw = k.letters ++ r ∧ StopsWord r := by
  rw [Line.keyword?, Line.trimmed_ofRaw, Keyword.leading?_eq_some_iff, Keyword.opens_iff]

/-- A line with a keyword is neither blank nor a comment. -/
theorem Line.isCode_of_keyword? {line : Line} {k : Keyword} (h : line.keyword? = some k) :
    line.isCode = true := by
  obtain ⟨r, hr, -⟩ := Keyword.opens_iff.1 (Keyword.leading?_eq_some_iff.1 h)
  obtain ⟨c, s, hk⟩ := List.exists_cons_of_ne_nil k.letters_ne_nil
  have hslash : '/' ≠ c := by
    rintro rfl
    exact k.slash_notMem_letters (by simp [hk])
  rw [Line.isCode, hr, hk, List.cons_append, startsWith, dropPrefix?, if_neg hslash]
  simp

theorem StopsWord.of_prefix {s t : List Char} (h : StopsWord (s ++ t)) : StopsWord s := by
  intro c hc
  refine h c ?_
  rw [List.head?_append, Option.mem_def.1 hc]
  rfl

/-- The arguments of a keyword are the words behind it. -/
theorem Line.arguments_eq {line : Line} {k : Keyword} {r : List Char}
    (hr : line.trimmed = k.letters ++ r) :
    line.arguments k = segmentsAt (line.indent + byteLength k.letters) (stripComment r) := by
  have hdrop : (k.letters ++ r).drop k.letters.length = r := List.drop_left
  rw [Line.arguments, hr, hdrop, segments_eq, ← segmentsAt_shift, Nat.add_zero]

/-- Cutting a comment and trimming a line in front of it leaves the words in front of it. -/
theorem words_trimEnd_stripComment {r : List Char} (hlast : ∀ c ∈ r.getLast?, isBlank c = false) :
    words (trimEnd (stripComment r)) = words (stripComment r) := by
  rcases stripComment_eq_or r with h | ⟨u, -, hq⟩
  · rw [h, trimEnd_of_getLast hlast]
  · obtain ⟨t, ht, hblank⟩ := exists_trimEnd_append (stripComment r)
    have hqt : quotedAt false (trimEnd (stripComment r)) = false := by
      rw [ht, quotedAt_append, quotedAt_of_notMem (AllBlank.quote_notMem hblank)] at hq
      exact hq
    conv_rhs => rw [ht]
    rw [words_append_of_allBlank hqt hblank]

/-- What the reader takes of a line with a keyword. -/
theorem lineBody_of_letters {raw : List Char} {k : Keyword} {r : List Char}
    (hr : trim raw = k.letters ++ r) :
    lineBody raw = k.letters ++ trimEnd (stripComment r) := by
  have hletters : trimEnd k.letters = k.letters := by
    refine trimEnd_of_getLast fun c hc => k.isBlank_of_mem_letters c (List.mem_of_getLast? hc)
  rw [lineBody, hr, stripComment, stripCommentFrom_append_of_notMem _ _ k.slash_notMem_letters,
    quotedAt_of_notMem k.quote_notMem_letters]
  by_cases hnil : trimEnd (stripCommentFrom false r) = []
  · obtain ⟨t, ht, hblank⟩ := exists_trimEnd_append (stripCommentFrom false r)
    rw [hnil, List.nil_append] at ht
    rw [ht, trimEnd_append_of_allBlank _ hblank, stripComment, ht, trimEnd_of_allBlank hblank,
      hletters, List.append_nil]
  · exact trimEnd_append_of_ne_nil _ hnil

/-- So it is no text line. -/
theorem layout?_lineBody_of_letters {raw : List Char} {k : Keyword} {r : List Char}
    (hr : trim raw = k.letters ++ r) : layout? (lineBody raw) = none := by
  have hupper := k.isUpper_of_mem_letters
  rw [lineBody_of_letters hr]
  cases hk : k.letters with
  | nil => exact absurd hk k.letters_ne_nil
  | cons c s =>
    rw [hk] at hupper
    have hnil : AllBlank [] := by simp [AllBlank]
    exact layout?_eq_none_of_isUpper hnil (hupper c List.mem_cons_self) _

/-- **The reader sees the keyword and the arguments that the checks see.** -/
theorem CodeLine.ofRaw?_of_keyword? {n : Nat} {raw : List Char} {k : Keyword}
    (h : (Line.ofRaw n raw).keyword? = some k) :
    ∃ source, CodeLine.ofRaw? n raw = some ⟨n, source,
        .keyword k :: ((Line.ofRaw n raw).arguments k).map fun a => Token.ofWord a.text⟩ ∧
      words source = k.letters :: ((Line.ofRaw n raw).arguments k).map Segment.text := by
  obtain ⟨r, hr, hstop⟩ := Line.keyword?_eq_some_iff.1 h
  have hbody := lineBody_of_letters hr
  have hwords : words (lineBody raw) =
      k.letters :: ((Line.ofRaw n raw).arguments k).map Segment.text := by
    have hlast : ∀ c ∈ r.getLast?, isBlank c = false := by
      intro c hc
      refine isBlank_getLast_trim raw c ?_
      rw [hr, List.getLast?_append, Option.mem_def.1 hc]
      rfl
    have hstop' : StopsWord (trimEnd (stripComment r)) := by
      obtain ⟨t, ht, -⟩ := exists_trimEnd_append (stripComment r)
      obtain ⟨u, hu⟩ := stripCommentFrom_prefix false r
      refine StopsWord.of_prefix (t := t ++ u) ?_
      rw [← List.append_assoc, ← ht, stripComment, hu]
      exact hstop
    have hletters : IsWord k.letters :=
      isWord_of_no_blank k.letters_ne_nil k.isBlank_of_mem_letters
    rw [hbody, words_append_of_stopsWord hletters (quotedAt_of_notMem k.quote_notMem_letters false)
      hstop', words_trimEnd_stripComment hlast,
      Line.arguments_eq ((Line.trimmed_ofRaw n raw).trans hr), map_text_segmentsAt]
  refine ⟨lineBody raw, CodeLine.ofRaw?_eq_some_iff.2 ⟨?_, ?_⟩, hwords⟩
  · exact Line.isCode_iff.1 (Line.isCode_of_keyword? h)
  · rw [Token.ofLine_of_layout?_eq_none (layout?_lineBody_of_letters hr), hwords, List.map_cons,
      Token.ofWord_letters, List.map_map]
    rfl

/-- A text whose first word is `w` starts with it. -/
theorem exists_append_of_words_eq_cons {s w : List Char} {ws : List (List Char)}
    (hs : ∀ c ∈ s.head?, isBlank c = false) (h : words s = w :: ws) :
    ∃ r, s = w ++ r ∧ (r = [] ∧ ws = [] ∨ r ≠ [] ∧ StopsWord r) := by
  obtain ⟨v, r, hv, hfirst, hr⟩ := exists_append_segmentsFrom s false 0
  have hne : v ≠ [] := by
    rintro rfl
    rcases hr with ⟨rfl, -⟩ | ⟨c, b, rfl, hc, -⟩
    · rw [hv] at h
      exact absurd h (by simp)
    · rw [hs c (by rw [hv]; rfl)] at hc
      exact absurd hc (by decide)
  have hseg : segments s = ⟨0, v⟩ :: (segmentsFrom false 0 s).2 := by
    rw [segments_eq, segmentsAt, hfirst, Segment.cons, if_neg hne]
  rw [words, hseg, List.map_cons, List.cons.injEq] at h
  obtain ⟨rfl, hws⟩ := h
  refine ⟨r, hv, ?_⟩
  rcases hr with ⟨rfl, hnil⟩ | ⟨c, b, rfl, hc, -⟩
  · rw [hnil] at hws
    exact Or.inl ⟨rfl, hws.symm⟩
  · refine Or.inr ⟨by simp, fun d hd => ?_⟩
    obtain rfl : c = d := by simpa using hd
    exact hc

/-- Where only a keyword is left of a line, what was cut from it is nothing, or it starts with a
blank, or it is a comment. -/
theorem stopsWord_or_comment {raw t : List Char} {k : Keyword} (ht : trim raw = k.letters ++ t)
    (hbody : lineBody raw = k.letters) : StopsWord t ∨ ∃ r, t = '/' :: '/' :: r := by
  cases t with
  | nil => exact Or.inl fun c hc => absurd hc (by simp)
  | cons c u =>
    by_cases hc : isBlank c = true
    · refine Or.inl fun d hd => ?_
      obtain rfl : c = d := by simpa using hd
      exact hc
    · have hcut := lineBody_of_letters ht
      rw [hbody] at hcut
      have hnil : trimEnd (stripComment (c :: u)) = [] := by
        have := congrArg List.length hcut
        rw [List.length_append] at this
        exact List.length_eq_zero_iff.1 (by omega)
      rw [stripComment, stripCommentFrom] at hnil
      split at hnil
      next hs =>
        simp only [Bool.not_false, Bool.true_and, Bool.and_eq_true, beq_iff_eq] at hs
        obtain ⟨rfl, hs⟩ := hs
        obtain ⟨v, rfl⟩ := List.head?_eq_some_iff.1 hs
        exact Or.inr ⟨v, rfl⟩
      next =>
        rw [trimEnd_cons (Bool.not_eq_true _ ▸ hc)] at hnil
        exact absurd hnil (by simp)

/-- **The checks see the keyword that the reader sees**, unless a comment follows it at once. -/
theorem Line.keyword?_of_opensWith {n : Nat} {raw : List Char} {line : CodeLine} {k : Keyword}
    (hline : CodeLine.ofRaw? n raw = some line) (h : line.opensWith k = true) :
    (Line.ofRaw n raw).keyword? = some k ∨
      (∃ r, trim raw = k.letters ++ '/' :: '/' :: r) ∧ line.tokens = [.keyword k] := by
  obtain ⟨hne, rfl⟩ := CodeLine.ofRaw?_eq_some_iff.1 hline
  obtain ⟨t, ht⟩ := exists_trim_eq_lineBody_append raw
  have hhead : (Token.ofLine (lineBody raw)).head? = some (.keyword k) := eq_of_beq h
  cases hlayout : layout? (lineBody raw) with
  | some l =>
    rw [Token.ofLine, hlayout] at hhead
    exact absurd hhead (by simp)
  | none =>
    rw [Token.ofLine_of_layout?_eq_none hlayout] at hhead ⊢
    cases hwords : words (lineBody raw) with
    | nil => rw [hwords] at hhead; exact absurd hhead (by simp)
    | cons w ws =>
      rw [hwords, List.map_cons, List.head?_cons, Option.some.injEq] at hhead
      obtain rfl := Token.ofWord_eq_keyword_iff.1 hhead
      obtain ⟨r, hr, hcases⟩ := exists_append_of_words_eq_cons (isBlank_head_lineBody raw) hwords
      rcases hcases with ⟨rfl, rfl⟩ | ⟨hrne, hstop⟩
      · rw [List.append_nil] at hr
        rw [hr] at ht
        rcases stopsWord_or_comment ht hr with hstop | ⟨v, rfl⟩
        · exact Or.inl (Line.keyword?_eq_some_iff.2 ⟨t, ht, hstop⟩)
        · exact Or.inr ⟨⟨v, ht⟩, by rw [List.map_cons, Token.ofWord_letters]; rfl⟩
      · refine Or.inl (Line.keyword?_eq_some_iff.2 ⟨r ++ t, ?_, ?_⟩)
        · rw [ht, hr, List.append_assoc]
        · intro c hc
          cases r with
          | nil => exact absurd rfl hrne
          | cons d r => exact hstop c hc

end Gamebook
