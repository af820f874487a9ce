import Gamebook.Grammar.Rule
import Gamebook.Proofs.Grammar.Clause
import Gamebook.Proofs.Text.Words
import Gamebook.Script.Reader

/-!
Gamebook.Proofs.Script.Token — words and their tokens.

The reader decides by the first character of a word what it is, the checks decide by its shape. Here
the two views are set side by side: what an accepted page is as a token (`ofWord_of_accepts_page`),
that no accepted label is a destination, and that a word is a clause for the reader whatever stands
in its list of flags (`guard?_ofWord`).
-/

namespace Gamebook

open Text

namespace Token

theorem ofLine_of_layout?_eq_none {s : List Char} (h : layout? s = none) :
    ofLine s = (words s).map ofWord := by
  rw [ofLine, h, words, List.map_map]
  rfl

/-! ## Words without a sigil -/

/-- The characters that decide alone what a word is. -/
def sigils : List Char := ['@', '$', '/', '"', '#']

theorem ofWord_of_head {w : List Char} (h : ∀ c ∈ w.head?, c ∉ sigils) :
    ofWord w = ofPlainWord w := by
  unfold ofWord
  split
  all_goals first
    | rfl
    | exact absurd (h _ rfl) (by decide)

theorem keyword_letters_head (k : Keyword) : ∀ c ∈ k.letters.head?, c ∉ sigils := by
  cases k <;> decide

theorem ofWord_letters (k : Keyword) : ofWord k.letters = keyword k := by
  rw [ofWord_of_head (keyword_letters_head k), ofPlainWord, Keyword.ofWord?_eq_some_iff.2 rfl]

theorem ofPlainWord_eq_keyword {w : List Char} {k : Keyword} (h : ofPlainWord w = keyword k) :
    w = k.letters := by
  unfold ofPlainWord at h
  split at h
  next j hj =>
    rw [keyword.injEq] at h
    rw [← h]
    exact Keyword.ofWord?_eq_some_iff.1 hj
  next =>
    split at h
    · split at h <;> exact absurd h (by simp)
    · split at h <;> exact absurd h (by simp)

/-- A page, unless a caret follows its sigil. -/
theorem ofWord_at {name : List Char} (h : ∀ c ∈ name.head?, c ≠ '^') :
    ofWord ('@' :: name) =
      if name = [] then other (String.ofList ('@' :: name)) else page (String.ofList name) := by
  rw [ofWord]
  rintro rest rfl
  exact h '^' rfl rfl

/-- The token is one that a sigil leads to, or one without a meaning. -/
def IsSigiled : Token → Prop
  | keyword _ | guard _ | time _ | message .. => False
  | _ => True

/-- A word that starts with a sigil is neither a keyword nor a clause nor a time limit. -/
theorem isSigiled_ofWord {c : Char} (h : c ∈ sigils) (s : List Char) :
    (ofWord (c :: s)).IsSigiled := by
  simp only [sigils, List.mem_cons, List.not_mem_nil, or_false] at h
  rcases h with rfl | rfl | rfl | rfl | rfl
  · by_cases hs : ∀ c ∈ s.head?, c ≠ '^'
    · rw [ofWord_at hs]
      split <;> trivial
    · obtain ⟨c, hc⟩ := not_forall.1 hs
      obtain ⟨hhead, hcaret⟩ := Classical.not_imp.1 hc
      obtain ⟨name, rfl⟩ := List.head?_eq_some_iff.1 hhead
      obtain rfl := not_not.1 hcaret
      rw [ofWord]
      split <;> trivial
  · rw [ofWord]
    split <;> trivial
  · rw [ofWord]
    split <;> trivial
  · trivial
  · trivial

theorem guard?_of_isSigiled {t : Token} (h : t.IsSigiled) : t.guard? = none := by
  cases t <;> first | rfl | exact absurd h id

/-- A word has a sigil in front, or it is plain. -/
theorem sigil_or_plain (w : List Char) :
    (∃ c s, w = c :: s ∧ c ∈ sigils) ∨ ofWord w = ofPlainWord w := by
  by_cases hw : ∀ c ∈ w.head?, c ∉ sigils
  · exact Or.inr (ofWord_of_head hw)
  · obtain ⟨c, hc⟩ := not_forall.1 hw
    obtain ⟨hhead, hmem⟩ := Classical.not_imp.1 hc
    obtain ⟨s, rfl⟩ := List.head?_eq_some_iff.1 hhead
    exact Or.inl ⟨c, s, rfl, not_not.1 hmem⟩

/-- **Only a keyword is a keyword.** -/
theorem ofWord_eq_keyword_iff {w : List Char} {k : Keyword} :
    ofWord w = keyword k ↔ w = k.letters := by
  constructor
  · intro h
    rcases sigil_or_plain w with ⟨c, s, rfl, hc⟩ | hplain
    · have hsigiled := isSigiled_ofWord hc s
      rw [h] at hsigiled
      exact absurd hsigiled id
    · exact ofPlainWord_eq_keyword (hplain ▸ h)
  · rintro rfl
    exact ofWord_letters k

/-- Only what stands behind `#` is a command, and all of it is. -/
theorem ofWord_eq_exec_iff {w : List Char} {name : String} :
    ofWord w = exec name ↔ w = '#' :: name.toList := by
  constructor
  · intro h
    unfold ofWord at h
    split at h
    next => split at h <;> exact absurd h (by simp)
    next => split at h <;> exact absurd h (by simp)
    next => split at h <;> exact absurd h (by simp)
    next => split at h <;> exact absurd h (by simp)
    next => exact absurd h (by simp)
    next =>
      rw [exec.injEq] at h
      rw [← h, String.toList_ofList]
    next =>
      unfold ofPlainWord at h
      split at h
      next => exact absurd h (by simp)
      next =>
        split at h
        next => split at h <;> exact absurd h (by simp)
        next => split at h <;> exact absurd h (by simp)
  · rintro rfl
    rw [ofWord, String.ofList_toList]

/-! ## Clauses -/

theorem guard_ofWord?_of_sigil {c : Char} (h : c ∈ sigils) (s : List Char) :
    Guard.ofWord? (c :: s) = none := by
  have hlower : c.isLower = false := by
    have key : ∀ c ∈ sigils, c.isLower = false := by decide
    exact key c h
  cases hg : Guard.ofWord? (c :: s) with
  | none => rfl
  | some g =>
    have hhead : ∃ d r, c :: s = d :: r ∧ d.isLower = true := by
      rcases Guard.ofWord?_eq_some_iff.1 hg with ⟨hw, -⟩ | ⟨k, value, hw, -⟩
      · rw [hw]; exact ⟨_, _, rfl, by decide⟩
      · obtain ⟨d, r, hk, hd⟩ :=
          IsClauseWord.head (w := k.opening) (Or.inr ⟨k, [], by simp, by simp⟩)
        exact ⟨d, r ++ value, by rw [hw, hk]; rfl, hd⟩
    obtain ⟨d, r, hcons, hd⟩ := hhead
    rw [List.cons.injEq] at hcons
    rw [← hcons.1, hlower] at hd
    exact absurd hd (by decide)

theorem guard_ofWord?_letters (k : Keyword) : Guard.ofWord? k.letters = none := by
  cases k <;> decide

/-- A word behind `time:` is no clause. -/
theorem guard_ofWord?_time (name : List Char) :
    Guard.ofWord? (TimeLimit.sigil ++ name) = none := by
  cases hg : Guard.ofWord? (TimeLimit.sigil ++ name) with
  | none => rfl
  | some g =>
    have hcolon : ':' ∉ "time".toList := by decide
    have hsplit : splitAtColon? (TimeLimit.sigil ++ name) = some ("time".toList, name) :=
      splitAtColon?_append hcolon name
    rcases Guard.ofWord?_eq_some_iff.1 hg with ⟨hw, -⟩ | ⟨k, value, hw, -⟩
    · have hneg : splitAtColon? negation = some ("mode".toList, "not".toList) := by decide
      rw [hw, hneg] at hsplit
      have hname : "mode".toList = "time".toList := congrArg Prod.fst (Option.some.inj hsplit)
      exact absurd hname (by decide)
    · have hk : splitAtColon? (k.opening ++ value) = some (k.letters, value) := by
        rw [ClauseKind.opening, List.append_assoc]
        exact splitAtColon?_append k.colon_notMem_letters value
      rw [hw, hk] at hsplit
      have key : ∀ k ∈ ClauseKind.all, k.letters ≠ "time".toList := by decide
      exact absurd (congrArg Prod.fst (Option.some.inj hsplit)) (key k k.mem_all)

/-- **The reader takes a word for a clause by its shape alone.** -/
theorem guard?_ofWord (w : List Char) : (ofWord w).guard? = Guard.ofWord? w := by
  rcases sigil_or_plain w with ⟨c, s, rfl, hc⟩ | hplain
  · rw [guard_ofWord?_of_sigil hc, guard?_of_isSigiled (isSigiled_ofWord hc s)]
  · rw [hplain]
    unfold ofPlainWord
    split
    next k hk => rw [Keyword.ofWord?_eq_some_iff.1 hk, guard_ofWord?_letters]; rfl
    next =>
      split
      next name hname =>
        rw [dropPrefix?_eq_some_iff.1 hname, guard_ofWord?_time]
        split <;> rfl
      next =>
        split
        next g hg => rw [hg]; rfl
        next hg => rw [hg]; rfl

theorem ofWord_eq_guard_iff {w : List Char} {g : Guard} :
    ofWord w = guard g ↔ Guard.ofWord? w = some g := by
  rw [← guard?_ofWord]
  cases ofWord w <;> simp [guard?]

/-! ## Arguments -/

/-- What the checks accept as a page is the token of a page with that very name, or a meta
target. -/
theorem ofWord_of_accepts_page {w : List Char} (h : ArgKind.page.accepts w = true) :
    (∃ name, w = '@' :: name ∧ name ≠ [] ∧ (∀ c ∈ name, isWordChar c = true) ∧
        ofWord w = page (String.ofList name)) ∨
      ∃ t : MetaTarget, w = '@' :: '^' :: t.letters ∧ ofWord w = metaTarget t := by
  cases w with
  | nil => exact absurd h (by decide)
  | cons c name =>
    by_cases hc : c = '@'
    · subst hc
      by_cases hcaret : ∀ c ∈ name.head?, c ≠ '^'
      · have haccept : (name != [] && name.all isWordChar) = true := by
          rw [ArgKind.accepts] at h
          · exact h
          · rintro rest rfl
            exact hcaret '^' rfl rfl
        simp only [Bool.and_eq_true, bne_iff_ne, List.all_eq_true] at haccept
        refine Or.inl ⟨name, rfl, haccept.1, haccept.2, ?_⟩
        rw [ofWord_at hcaret, if_neg haccept.1]
      · obtain ⟨c, hc⟩ := not_forall.1 hcaret
        obtain ⟨hhead, hcc⟩ := Classical.not_imp.1 hc
        obtain ⟨target, rfl⟩ := List.head?_eq_some_iff.1 hhead
        obtain rfl := not_not.1 hcc
        obtain ⟨t, ht⟩ := Option.isSome_iff_exists.1 h
        refine Or.inr ⟨t, by rw [MetaTarget.ofName?_eq_some_iff.1 ht], ?_⟩
        rw [ofWord, ht]
    · rw [ArgKind.accepts] at h
      · exact absurd h (by decide)
      · rintro rest heq
        exact hc (List.cons.inj heq).1
      · rintro rest heq
        exact hc (List.cons.inj heq).1

/-- No keyword has the name that stands in front of a time limit. -/
theorem ofWord?_sigil_append (name : List Char) :
    Keyword.ofWord? (TimeLimit.sigil ++ name) = none := by
  cases hk : Keyword.ofWord? (TimeLimit.sigil ++ name) with
  | none => rfl
  | some k =>
    have hcolon : ':' ∈ k.letters := by
      rw [← Keyword.ofWord?_eq_some_iff.1 hk]
      simp [TimeLimit.sigil]
    exact absurd hcolon (k.notMem_letters (by decide))

theorem ofWord_sigil_append {name : List Char} {t : TimeLimit}
    (h : TimeLimit.ofName? name = some t) : ofWord (TimeLimit.sigil ++ name) = time t := by
  have hhead : ∀ c ∈ (TimeLimit.sigil ++ name).head?, c ∉ sigils := by
    intro c hc
    obtain rfl : 't' = c := by simpa [TimeLimit.sigil] using hc
    decide
  rw [ofWord_of_head hhead, ofPlainWord, ofWord?_sigil_append, dropPrefix?_append]
  simp only [h]

/-- What the checks accept as a time limit is the token of one, and nothing else is. -/
theorem accepts_time_iff {w : List Char} :
    ArgKind.time.accepts w = true ↔ ∃ t, ofWord w = time t := by
  constructor
  · intro h
    rw [ArgKind.accepts] at h
    split at h
    next name hname =>
      obtain ⟨t, ht⟩ := Option.isSome_iff_exists.1 h
      obtain rfl := dropPrefix?_eq_some_iff.1 hname
      exact ⟨t, ofWord_sigil_append ht⟩
    next => exact absurd h (by decide)
  · rintro ⟨t, ht⟩
    rcases sigil_or_plain w with ⟨c, s, rfl, hc⟩ | hplain
    · have hsigiled := isSigiled_ofWord hc s
      rw [ht] at hsigiled
      exact absurd hsigiled id
    · rw [hplain] at ht
      unfold ofPlainWord at ht
      split at ht
      next => exact absurd ht (by simp)
      next =>
        split at ht
        next name hname =>
          split at ht
          next limit hlimit =>
            rw [ArgKind.accepts, hname]
            show (TimeLimit.ofName? name).isSome = true
            rw [hlimit]
            rfl
          next => exact absurd ht (by simp)
        next =>
          split at ht <;> exact absurd ht (by simp)

/-- An accepted label is a text or starts with a slash, so it is neither a destination nor a
clause. -/
theorem ofWord_of_accepts_textOrSpecial {w : List Char}
    (h : ArgKind.textOrSpecial.accepts w = true) :
    (ofWord w).destination? = none ∧ (ofWord w).guard? = none := by
  have hhead : ∃ c s, w = c :: s ∧ (c = '"' ∨ c = '/') := by
    simp only [ArgKind.accepts, Bool.or_eq_true, List.any_eq_true] at h
    rcases h with h | ⟨m, -, h⟩
    · obtain ⟨r, rfl⟩ := startsWith_iff.1 h
      exact ⟨'"', r, rfl, Or.inl rfl⟩
    · obtain ⟨r, rfl⟩ := startsWith_iff.1 h
      cases m <;> exact ⟨'/', _, rfl, Or.inr rfl⟩
  obtain ⟨c, s, rfl, rfl | rfl⟩ := hhead
  · exact ⟨rfl, rfl⟩
  · refine ⟨?_, ?_⟩
    · rw [ofWord]; split <;> rfl
    · rw [ofWord]; split <;> rfl

end Token

end Gamebook
