import Gamebook.Check.Clause
import Gamebook.Proofs.Script.Layout
import Gamebook.Proofs.Script.Meaning
import Gamebook.Proofs.Text.Blanking
import Gamebook.Proofs.Unread.Word

/-!
Gamebook.Proofs.Negation.Word — negations and the words behind them.

The checks look at the front of a word to tell whether it is a clause, and so does the reader: both
want the name of a clause and a colon (`isClauseWord_eq`). Quoted text does not matter to that, nor
does the marker of a text line at the end of its last word. So the checks may look for negations
among the blanked words of a line, or among the words in front of the marker with the marker added,
and find the same (`negationMarksIn_blanked`, `negationMarksIn_concat_marker`).
-/

namespace Gamebook

open Text

/-! ## Clauses -/

theorem isClauseWord_iff {w : List Char} :
    isClauseWord w = true ↔ ∃ (k : ClauseKind) (value : List Char), w = k.opening ++ value := by
  rw [isClauseWord, clauseWord?, startsWith]
  cases hneg : dropPrefix? negation w with
  | some r =>
    refine ⟨fun h => absurd h (by simp), ?_⟩
    rintro ⟨k, value, rfl⟩
    rw [k.dropPrefix?_negation value] at hneg
    exact absurd hneg (by simp)
  | none =>
    simp only [Option.isSome_map, Option.isSome_none, Bool.not_false, Bool.and_true,
      Option.isSome_iff_exists]
    constructor
    · rintro ⟨⟨k, value⟩, h⟩
      exact ⟨k, value, (ClauseKind.opening?_eq_some_iff.1 h).2⟩
    · rintro ⟨k, value, hw⟩
      exact ⟨(k, value), ClauseKind.opening?_eq_some_iff.2 ⟨k.mem_all, hw⟩⟩

theorem Token.clause?_eq_some_iff {t : Token} {c : Clause} :
    t.clause? = some c ↔ t = guard (.clause c) := by
  unfold clause?
  split <;> simp_all

/-- **The checks and the reader take the same words for clauses.** -/
theorem isClauseWord_eq (w : List Char) : isClauseWord w = (Token.ofWord w).clause?.isSome := by
  rw [Bool.eq_iff_iff, isClauseWord_iff, Option.isSome_iff_exists]
  simp only [Token.clause?_eq_some_iff, Token.ofWord_eq_guard_iff, Guard.ofWord?_eq_some_iff]
  constructor
  · rintro ⟨k, value, hw⟩
    exact ⟨_, Or.inr ⟨k, value, hw, rfl⟩⟩
  · rintro ⟨c, ⟨-, h⟩ | ⟨k, value, hw, -⟩⟩
    · exact absurd h (by simp)
    · exact ⟨k, value, hw⟩

/-- Quoted text does not make a clause, nor does it hide one. -/
theorem isClauseWord_blankQuoted (w : List Char) : isClauseWord (blankQuoted w) = isClauseWord w := by
  by_cases hw : '"' ∈ w
  · obtain ⟨u, x, x', rfl, hblank⟩ := exists_blankQuoted_of_mem hw
    rw [hblank]
    exact looksInFront_isClauseWord u x' x
  · rw [blankQuoted, blankQuotedFrom_of_notMem hw]

/-- Nor does a marker behind it. -/
theorem isClauseWord_concat_marker {w : List Char} (hw : IsClauseWord w) (k : MessageKind) :
    isClauseWord (w ++ [k.marker]) = isClauseWord w := by
  rcases hw with rfl | ⟨kind, flags, rfl, -⟩
  · cases k <;> decide
  · rw [isClauseWord_iff.2 ⟨kind, flags, rfl⟩]
    exact isClauseWord_iff.2 ⟨kind, flags ++ [k.marker], List.append_assoc ..⟩

/-! ## Negations of nothing -/

/-- The word is a negation with a marker behind it. -/
def isMarkedNegation (word : List Char) : Bool :=
  word == negation ++ ['>'] || word == negation ++ ['-']

/-- A clause is the next word. -/
def clauseFollows (behind : List Segment) : Bool := behind.head?.any fun w => isClauseWord w.text

/-- A negation is one of nothing if no clause follows, or if a marker stands behind it. -/
theorem isDangling_eq_clauseFollows (word : List Char) (behind : List Segment) :
    isDangling word behind =
      (word == negation && !clauseFollows behind || isMarkedNegation word) := by
  unfold isDangling
  cases hword : dropPrefix? negation word with
  | none =>
    have hne : ∀ r, word ≠ negation ++ r := fun r h => by
      rw [h, dropPrefix?_append] at hword
      exact absurd hword (by simp)
    have hself : word ≠ negation := fun h => hne [] (by rw [h, List.append_nil])
    simp [isMarkedNegation, hself, hne]
  | some r =>
    obtain rfl := dropPrefix?_eq_some_iff.1 hword
    have hr : ∀ r', (negation ++ r == negation ++ r') = (r == r') := by
      intro r'
      rw [Bool.eq_iff_iff, beq_iff_eq, beq_iff_eq, List.append_cancel_left_eq]
    have hself : (negation ++ r == negation) = (r == []) := by
      rw [← hr, List.append_nil]
    rw [isMarkedNegation, hr, hr, hself]
    split
    next h =>
      obtain rfl := Option.some.inj h
      cases behind <;> simp [clauseFollows]
    next h =>
      obtain rfl := Option.some.inj h
      rfl
    next h =>
      obtain rfl := Option.some.inj h
      rfl
    next hnil hgt hminus =>
      have h₁ : r ≠ [] := fun h => hnil (by rw [h])
      have h₂ : r ≠ ['>'] := fun h => hgt (by rw [h])
      have h₃ : r ≠ ['-'] := fun h => hminus (by rw [h])
      simp [h₁, h₂, h₃]

/-! ## Words with quoted text -/

theorem clauseFollows_blanked (behind : List Segment) :
    clauseFollows (behind.map Segment.blanked) = clauseFollows behind := by
  cases behind with
  | nil => rfl
  | cons w behind => exact isClauseWord_blankQuoted w.text

theorem isDangling_blanked (w : List Char) (behind : List Segment) :
    isDangling (blankQuoted w) (behind.map Segment.blanked) = isDangling w behind := by
  have hplain : ∀ v : List Char, '"' ∉ v → (blankQuoted w == v) = (w == v) := by
    intro v hv
    rw [Bool.eq_iff_iff, beq_iff_eq, beq_iff_eq, blankQuoted_eq_iff hv]
  rw [isDangling_eq_clauseFollows, isDangling_eq_clauseFollows, clauseFollows_blanked,
    isMarkedNegation, isMarkedNegation, hplain _ (by decide), hplain _ (by decide),
    hplain _ (by decide)]

/-- **Quoted text hides no negation**, and makes none. -/
theorem negationMarksIn_blanked (line : Line) (ws : List Segment) :
    negationMarksIn line (ws.map Segment.blanked) = negationMarksIn line ws := by
  induction ws with
  | nil => rfl
  | cons w ws ih =>
    rw [List.map_cons, negationMarksIn, negationMarksIn, ih]
    show (if isDangling (blankQuoted w.text) (ws.map Segment.blanked) then _ else _) ++ _ = _
    rw [isDangling_blanked]
    rfl

/-! ## Words in front of a marker -/

theorem ClauseRun.eq_nil {pos : Nat} {ws : List Segment} (h : ClauseRun pos [] ws) : ws = [] := by
  generalize hs : ([] : List Char) = s at h
  cases h with
  | blanks _ => rfl
  | word _ hw _ _ => exact absurd hs.symm (by simp [hw.ne_nil])

/-- A marker alone is no clause and no negation, and at the end of a word it changes neither. -/
theorem negationMarksIn_concat_marker (line : Line) {pos : Nat} {pre : List Char}
    {ws : List Segment} (h : ClauseRun pos pre ws) (k : MessageKind) :
    clauseFollows (segmentsAt pos (pre ++ [k.marker])) = clauseFollows ws ∧
      negationMarksIn line (segmentsAt pos (pre ++ [k.marker])) = negationMarksIn line ws := by
  have hmarker : Text.isBlank k.marker = false := Layout.isBlank_marker k
  induction h with
  | @blanks pos lead hlead =>
    have hword : IsWord [k.marker] := isWord_of_no_blank (by simp) (by simpa using hmarker)
    have hclause : isClauseWord [k.marker] = false := by cases k <;> decide
    have hdangling : isDangling [k.marker] [] = false := by cases k <;> decide
    rw [segmentsAt_append_blanks hlead, segmentsAt_of_isWord hword]
    refine ⟨hclause, ?_⟩
    simp only [negationMarksIn, hdangling, Bool.false_eq_true, if_false, List.append_nil]
  | @word pos lead w rest ws hlead hw hstop hrest ih =>
    rw [List.append_assoc, List.append_assoc, segmentsAt_append_blanks hlead]
    cases rest with
    | nil =>
      -- the marker is glued to the last word
      obtain rfl := hrest.eq_nil
      have hword : IsWord (w ++ [k.marker]) := by
        refine isWord_of_no_blank (by simp) fun c hc => ?_
        rcases List.mem_append.1 hc with hc | hc
        · exact hw.isBlank c hc
        · rwa [List.mem_singleton.1 hc]
      have hdangling : isDangling (w ++ [k.marker]) [] = isDangling w [] := by
        rcases hw with rfl | ⟨kind, flags, rfl, -⟩
        · cases k <;> decide
        · have hclause : ∀ value, isDangling (kind.opening ++ value) [] = false := by
            intro value
            rw [isDangling, kind.dropPrefix?_negation]
          rw [List.append_assoc, hclause, hclause]
      rw [List.nil_append, segmentsAt_of_isWord hword, negationMarksIn, negationMarksIn, hdangling]
      exact ⟨isClauseWord_concat_marker hw k, rfl⟩
    | cons c rest =>
      have hc : Text.isBlank c = true := hstop c rfl
      have hword : IsWord w := isWord_of_no_blank hw.ne_nil hw.isBlank
      have hquoted : quotedAt false w = false :=
        quotedAt_of_notMem (hw.notMem (by decide) (by decide)) false
      have hcut : segmentsAt (pos + byteLength lead) (w ++ (c :: rest ++ [k.marker])) =
          ⟨pos + byteLength lead, w⟩ ::
            segmentsAt (pos + byteLength lead + byteLength w) (c :: rest ++ [k.marker]) := by
        have hblank : AllBlank [c] := by simpa [AllBlank] using hc
        have hskip := segmentsAt_append_blanks hblank (pos + byteLength lead + byteLength w)
          (rest ++ [k.marker])
        rw [List.cons_append, segmentsAt_append_break hquoted hc, segmentsAt_of_isWord hword]
        rw [List.singleton_append] at hskip
        rw [hskip]
        rfl
      have hdangling : isDangling w (segmentsAt (pos + byteLength lead + byteLength w)
          (c :: rest ++ [k.marker])) = isDangling w ws := by
        rw [isDangling_eq_clauseFollows, isDangling_eq_clauseFollows, ih.1]
      rw [hcut, negationMarksIn, negationMarksIn, ih.2, hdangling]
      exact ⟨rfl, rfl⟩

end Gamebook
