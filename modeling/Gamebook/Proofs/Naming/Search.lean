import Gamebook.Proofs.Naming.Place

/-!
Gamebook.Proofs.Naming.Search — the search for names finds each of them once.

The search goes on behind a match and tries no place within it. It finds a name at every place of
the sigil all the same (`filter_scanFrom`): a match holds the sigil at its start only. A page with a
caret is found too, but not as a name, since the caret is no word character.

The search runs over the code of a line, which is the line with its end cut and with its quoted text
blanked. Neither moves a name to another byte, nor makes it longer or shorter
(`namesFrom_blankQuotedFrom`). So what is found on a line are the names that stand in its code
(`Line.filter_hits`).
-/

namespace Gamebook

open Text

/-- The pattern for names of this kind. -/
def NameKind.pattern : NameKind → Pattern
  | page => .pageRef
  | flag => .flagRef

/-- The names in a text that stands at byte `pos`: what is found if every place is tried. -/
def namesFrom (sigil : Char) (pos : Nat) : List Char → List Hit
  | [] => []
  | c :: s =>
    (if c = sigil ∧ wordRun s ≠ [] then [⟨pos, [sigil], wordRun s⟩] else []) ++
      namesFrom sigil (pos + c.utf8Size) s

/-! ## Every place is tried -/

theorem NameKind.startsWithSigil (kind : NameKind) :
    kind.pattern.StartsWithSigil kind.sigil := by
  cases kind with
  | page => exact Pattern.startsWithSigil_pageRef
  | flag => exact Pattern.startsWithSigil_flagRef

/-- What is found at a sigil as a name is the word behind it. -/
theorem NameKind.filter_at?_sigil (kind : NameKind) (b : Bool) (s : List Char) :
    (kind.pattern.at? b (kind.sigil :: s)).filter (fun m => m.1 = [kind.sigil]) =
      if wordRun s = [] then none else some ([kind.sigil], wordRun s) := by
  have hplain : (nonemptyRun? [kind.sigil] (wordRun s)).filter (fun m => m.1 = [kind.sigil]) =
      if wordRun s = [] then none else some ([kind.sigil], wordRun s) := by
    rw [nonemptyRun?]
    split <;> simp
  cases kind with
  | flag => exact hplain
  | page =>
    by_cases hcaret : ∃ r, s = '^' :: r
    · -- The caret ends the word at once, and what is found behind it is no name.
      obtain ⟨r, rfl⟩ := hcaret
      have hrun : wordRun ('^' :: r) = [] := by
        simp [wordRun, show isWordChar '^' = false by decide]
      rw [hrun, if_pos rfl]
      show (nonemptyRun? ['@', '^'] (wordRun r)).filter _ = none
      rw [nonemptyRun?]
      split <;> simp [sigil]
    · have hat : Pattern.pageRef.at? b ('@' :: s) = nonemptyRun? ['@'] (wordRun s) := by
        rw [Pattern.at?]
        exact fun r hr => hcaret ⟨r, hr⟩
      exact (congrArg (Option.filter _) hat).trans hplain

/-- **A search finds a name at every place of its sigil**, also behind the matches before it. -/
theorem NameKind.filter_scanFrom (kind : NameKind) : ∀ (s : List Char) (b : Bool) (skip pos : Nat),
    kind.sigil ∉ s.take skip →
      (kind.pattern.scanFrom b skip pos s).filter (fun hit => hit.lead = [kind.sigil]) =
        namesFrom kind.sigil pos s
  | [], _, _, _, _ => rfl
  | c :: s, b, k + 1, pos, h => by
      rw [List.take_succ_cons, List.mem_cons, not_or] at h
      rw [Pattern.scanFrom, filter_scanFrom kind s false k _ h.2, namesFrom,
        if_neg fun hand => h.1 hand.1.symm, List.nil_append]
  | c :: s, b, 0, pos, _ => by
      have ih := fun skip => filter_scanFrom kind s false skip (pos + c.utf8Size)
      rw [Pattern.scanFrom, namesFrom]
      cases hat : kind.pattern.at? b (c :: s) with
      | none =>
        have hfirst : ¬ (c = kind.sigil ∧ wordRun s ≠ []) := by
          rintro ⟨rfl, hrun⟩
          have hfound := kind.filter_at?_sigil b s
          rw [hat, if_neg hrun] at hfound
          exact absurd hfound (by simp)
        rw [if_neg hfirst, List.nil_append]
        exact ih 0 (by simp)
      | some m =>
        obtain ⟨lead, body⟩ := m
        obtain ⟨m, r, hs, hm, hnot⟩ := kind.startsWithSigil b _ lead body hat
        obtain ⟨rfl, hmatch⟩ := List.cons.inj hs
        have hskip : lead.length + body.length - 1 = m.length := by
          rw [← List.length_append, hm, List.length_cons, Nat.add_sub_cancel]
        have hbehind := ih m.length (by rw [hmatch, List.take_left]; exact hnot)
        have hfound := kind.filter_at?_sigil b s
        rw [hat] at hfound
        show List.filter _ (Hit.mk pos lead body :: Pattern.scanFrom _ _ _ _ _) = _
        rw [hskip]
        by_cases hrun : wordRun s = []
        · have hlead : lead ≠ [kind.sigil] := by
            intro hlead
            simp [hlead, hrun] at hfound
          rw [List.filter_cons_of_neg (by simpa using hlead), hbehind, if_neg fun h => h.2 hrun,
            List.nil_append]
        · obtain ⟨rfl, rfl⟩ : lead = [kind.sigil] ∧ body = wordRun s := by
            simpa [hrun, Option.filter_eq_some_iff, and_comm] using hfound
          rw [List.filter_cons_of_pos (by simp), hbehind, if_pos ⟨rfl, hrun⟩]
          rfl

/-! ## Quoted text is blanked -/

theorem wordRun_blankQuotedFrom (s : List Char) :
    wordRun (blankQuotedFrom false s) = wordRun s := by
  induction s with
  | nil => rfl
  | cons c s ih =>
    have hplain : blankQuotedFrom false (c :: s) =
        c :: blankQuotedFrom (quotedAfter false c) s := rfl
    rw [hplain, wordRun, wordRun, List.takeWhile_cons, List.takeWhile_cons]
    cases hc : isWordChar c with
    | false => rfl
    | true =>
      have hquote : c ≠ '"' := by
        rintro rfl
        exact absurd hc (by decide)
      rw [quotedAfter_of_ne hquote]
      exact congrArg (c :: ·) ih

section

variable {sigil : Char} (hsigil : sigil = '@' ∨ sigil = '$')
include hsigil

theorem namesFrom_spaces (n pos : Nat) (s : List Char) :
    namesFrom sigil pos (List.replicate n ' ' ++ s) = namesFrom sigil (pos + n) s := by
  have hspace : ' ' ≠ sigil := by rcases hsigil with rfl | rfl <;> decide
  induction n generalizing pos with
  | zero => rfl
  | succ n ih =>
    rw [List.replicate_succ, List.cons_append, namesFrom, if_neg fun hand => hspace hand.1,
      List.nil_append, ih]
    congr 1
    show pos + 1 + n = pos + (n + 1)
    omega

/-- **Names outside quoted text keep their bytes**, and all others are gone. -/
theorem namesFrom_blankQuotedFrom (s : List Char) (q : Bool) (pos : Nat) :
    namesFrom sigil pos (blankQuotedFrom q s) =
      (namePlaces sigil (fun i => !quotedAt q (s.take i)) s).map fun p =>
        ⟨pos + byteLength (s.take p.1), [sigil], p.2⟩ := by
  induction s generalizing q pos with
  | nil => rfl
  | cons c s ih =>
    have hbehind : namesFrom sigil (pos + c.utf8Size) (blankQuotedFrom (quotedAfter q c) s) =
        ((namePlaces sigil (fun i => !quotedAt q ((c :: s).take (i + 1))) s).map
          fun p => (p.1 + 1, p.2)).map fun p =>
            ⟨pos + byteLength ((c :: s).take p.1), [sigil], p.2⟩ := by
      rw [ih, List.map_map]
      refine List.map_congr_left fun p _ => ?_
      simp [Nat.add_assoc]
    rw [blankQuotedFrom, namePlaces_cons, List.map_append, ← hbehind]
    split
    next hblank =>
      -- The character is quoted, so no name starts there.
      simp only [Bool.and_eq_true] at hblank
      rw [namesFrom_spaces hsigil, if_neg (by simp [hblank.1])]
      rfl
    next hplain =>
      rw [List.cons_append, List.nil_append, namesFrom]
      by_cases hc : c = sigil
      · have hquote : c ≠ '"' := by
          rw [hc]
          rcases hsigil with rfl | rfl <;> decide
        have hq : q = false := by simpa [hquote] using hplain
        rw [hq, quotedAfter_of_ne hquote, wordRun_blankQuotedFrom]
        simp [hc, apply_ite (List.map _)]
      · simp [hc]

end

/-! ## The code of a line -/

/-- The code of the line ends behind `s`, but for some `m` that takes no part in names, and the line
itself goes on with `t`. -/
structure Line.CodeEnds (sigil : Char) (line : Line) (s m t : List Char) : Prop where
  /-- The line. -/
  raw : line.raw = s ++ t
  /-- Its code. -/
  code : line.code = blankQuoted (s ++ m)
  /-- No name starts in `m`. -/
  sigil_notMem : sigil ∉ m
  /-- No name goes on in the code. -/
  head_code : ∀ c ∈ m.head?, isWordChar c = false
  /-- No name goes on in the line. -/
  head_raw : ∀ c ∈ t.head?, isWordChar c = false
  /-- No sigil of the code stands in `t`. -/
  behind : ∀ i, line.inCode (s.length + i) = true → t[i]? ≠ some sigil
  /-- What is not quoted in `s` belongs to the code. -/
  front : ∀ i < s.length, line.inCode i = !quotedAt false (s.take i)

/-- The code of a text line is the line up to its marker, which no name reaches. -/
theorem Line.exists_codeEnds_of_layout? {sigil : Char} (hsigil : sigil = '@' ∨ sigil = '$')
    {line : Line} {l : Layout} (h : layout? line.raw = some l) :
    ∃ s m t, line.CodeEnds sigil s m t := by
  obtain ⟨pre, post, hraw, hrun, hsize, -⟩ := layout?_eq_some_iff.1 h
  have hmarker : l.kind.marker ≠ '"' ∧ isWordChar l.kind.marker = false ∧
      l.kind.marker ≠ sigil := by
    rcases hsigil with rfl | rfl <;> cases l.kind <;> decide
  have hquote : '"' ∉ pre := hrun.notMem (Or.inl rfl)
  have hcode : line.code = pre ++ [l.kind.marker] := Line.code_of_clauseRun hrun hraw
  have hinCode : ∀ i, line.inCode i = decide (byteLength (line.raw.take i) ≤ byteLength pre) := by
    intro i
    rw [Line.inCode, h, ← hsize]
  refine ⟨pre, [l.kind.marker], l.kind.marker :: post, hraw, ?_, ?_, ?_, ?_, ?_, ?_⟩
  · rw [hcode, blankQuoted, blankQuotedFrom_of_notMem]
    simp [hquote, hmarker.1.symm]
  · simpa using hmarker.2.2.symm
  · simpa using hmarker.2.1
  · simpa using hmarker.2.1
  · intro i hi
    cases i with
    | zero => simpa using hmarker.2.2
    | succ i =>
      have hpos := l.kind.marker.utf8Size_pos
      rw [hinCode, hraw, List.take_length_add_append, List.take_succ_cons, decide_eq_true_eq,
        byteLength_append, byteLength_cons] at hi
      omega
  · intro i hi
    have hle : byteLength (pre.take i) ≤ byteLength pre := by
      conv_rhs => rw [← List.take_append_drop i pre, byteLength_append]
      omega
    rw [hinCode, hraw, List.take_append_of_le_length hi.le, decide_eq_true hle,
      quotedAt_of_notMem fun hm => hquote (List.mem_of_mem_take hm)]
    rfl

/-- The code of any other line is the line up to its comment. -/
theorem Line.exists_codeEnds_of_layout?_eq_none (sigil : Char) {line : Line}
    (h : layout? line.raw = none) : ∃ s m t, line.CodeEnds sigil s m t := by
  have hinCode : ∀ i, line.inCode i = (!quotedAt false (line.raw.take i) &&
      (List.range (i + 1)).all fun j => !startsCommentAt line.raw j) := by
    intro i
    rw [Line.inCode, h]
  have hfront : ∀ t, line.raw = stripComment line.raw ++ t →
      ∀ i < (stripComment line.raw).length,
        line.inCode i = !quotedAt false ((stripComment line.raw).take i) := by
    intro t ht i hi
    have hall : ((List.range (i + 1)).all fun j => !startsCommentAt line.raw j) = true := by
      refine List.all_eq_true.2 fun j hj => ?_
      rw [startsCommentAt_of_lt (by have := List.mem_range.1 hj; omega)]
      rfl
    rw [hinCode, hall, Bool.and_true]
    conv_lhs => rw [ht, List.take_append_of_le_length hi.le]
  have hcode : line.code = blankQuoted (stripComment line.raw ++ []) := by
    rw [List.append_nil, Line.code_of_layout?_eq_none h]
  rcases stripComment_eq_or line.raw with hself | ⟨r, hr, hq⟩
  · have hnil : line.raw = stripComment line.raw ++ [] := by rw [List.append_nil, hself]
    exact ⟨_, [], [], hnil, hcode, by simp, by simp, by simp, by simp, hfront [] hnil⟩
  · refine ⟨_, [], _, hr, hcode, by simp, by simp, by simp; decide, fun i hi => ?_, hfront _ hr⟩
    -- The comment starts in front of all that is behind it.
    rw [hinCode, Bool.and_eq_true, List.all_eq_true] at hi
    have hcomment := hi.2 (stripComment line.raw).length (List.mem_range.2 (by omega))
    rw [startsCommentAt_length hr hq] at hcomment
    exact absurd hcomment (by decide)

/-- **The names in the code of a line are those of the line that its code reaches.** -/
theorem Line.namesFrom_code {sigil : Char} (hsigil : sigil = '@' ∨ sigil = '$') (line : Line) :
    namesFrom sigil 0 line.code =
      (namePlaces sigil line.inCode line.raw).map fun p =>
        ⟨byteLength (line.raw.take p.1), [sigil], p.2⟩ := by
  obtain ⟨s, m, t, h⟩ : ∃ s m t, line.CodeEnds sigil s m t := by
    cases h : layout? line.raw with
    | some l => exact exists_codeEnds_of_layout? hsigil h
    | none => exact exists_codeEnds_of_layout?_eq_none sigil h
  have hcode : namePlaces sigil (fun i => !quotedAt false ((s ++ m).take i)) (s ++ m) =
      namePlaces sigil line.inCode s := by
    rw [namePlaces_append h.head_code fun i _ hi => h.sigil_notMem (List.mem_of_getElem? hi)]
    refine namePlaces_congr fun i hi => ?_
    obtain ⟨hlt, -⟩ := List.getElem?_eq_some_iff.1 hi
    rw [h.front i hlt, List.take_append_of_le_length hlt.le]
  rw [h.code, blankQuoted, namesFrom_blankQuotedFrom hsigil, hcode, h.raw,
    namePlaces_append h.head_raw h.behind]
  refine List.map_congr_left fun p hp => ?_
  obtain ⟨-, -, -, hlength⟩ := exists_append_of_mem_namePlaces hp
  have hle : p.1 ≤ s.length := by
    rw [← hlength]
    exact List.length_take_le' _ _
  rw [Nat.zero_add, List.take_append_of_le_length hle, List.take_append_of_le_length hle]

/-- **What is found in the code of a line are the names that stand there.** -/
theorem Line.filter_hits (kind : NameKind) (line : Line) :
    (line.hits kind.pattern).filter (fun hit => hit.lead = [kind.sigil]) =
      (namePlaces kind.sigil line.inCode line.raw).map fun p =>
        ⟨byteLength (line.raw.take p.1), [kind.sigil], p.2⟩ := by
  rw [Line.hits, Pattern.scan, kind.filter_scanFrom _ _ _ _ (by simp)]
  exact Line.namesFrom_code (by cases kind <;> decide) line

end Gamebook
