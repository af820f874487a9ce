import Gamebook.Proofs.Script.Token

/-!
Gamebook.Proofs.Script.Shape — what an accepted argument is for the reader.

The checks accept an argument by its shape, the reader makes a token of it. `ofWord_of_accepts` sets
the six shapes beside the tokens. For time limits and clauses the two agree on every word. A page, a
flag or a text is accepted more narrowly than it is read, and what is accepted is read under the name
that stands behind its sigil.

The labels of options do not agree. The checks look at the beginning of a label only, so a longer
word such as `/SAMEx` passes (`IsOverlongLabel`), and the reader, which wants the whole word, finds
no label in it. Nothing else is accepted as a label without being one.
-/

namespace Gamebook

open Text

namespace Token

/-! ## Texts and labels -/

/-- Without a sigil there are four ways to be read. -/
theorem ofPlainWord_cases (w : List Char) :
    (∃ k, ofPlainWord w = keyword k) ∨ (∃ t, ofPlainWord w = time t) ∨
      (∃ g, ofPlainWord w = guard g) ∨ ofPlainWord w = other (String.ofList w) := by
  unfold ofPlainWord
  split
  next k _ => exact Or.inl ⟨k, rfl⟩
  next =>
    split
    next => split <;> simp
    next => split <;> simp

/-- A word is a text if it starts with a quotation mark; one at its end is taken off. -/
theorem ofWord_eq_text_iff {w : List Char} {t : String} :
    ofWord w = text t ↔ ∃ rest, w = '"' :: rest ∧ t = String.ofList (chop '"' rest) := by
  constructor
  · intro h
    unfold ofWord at h
    split at h
    next => split at h <;> exact absurd h (by simp)
    next => split at h <;> exact absurd h (by simp)
    next => split at h <;> exact absurd h (by simp)
    next => split at h <;> exact absurd h (by simp)
    next rest =>
      rw [text.injEq] at h
      exact ⟨rest, rfl, h.symm⟩
    next => exact absurd h (by simp)
    next =>
      rcases ofPlainWord_cases w with ⟨_, hw⟩ | ⟨_, hw⟩ | ⟨_, hw⟩ | hw
      all_goals
        rw [hw] at h
        exact absurd h (by simp)
  · rintro ⟨rest, rfl, rfl⟩
    rfl

/-- Behind a slash, the reader wants a label and nothing more. -/
theorem ofWord_eq_special_iff {w : List Char} {m : Special} :
    ofWord w = special m ↔ w = m.letters := by
  constructor
  · intro h
    unfold ofWord at h
    split at h
    next => split at h <;> exact absurd h (by simp)
    next => split at h <;> exact absurd h (by simp)
    next => split at h <;> exact absurd h (by simp)
    next =>
      split at h
      next label hlabel =>
        rw [special.injEq] at h
        rw [← h]
        exact Special.ofWord?_eq_some_iff.1 hlabel
      next => exact absurd h (by simp)
    next => exact absurd h (by simp)
    next => exact absurd h (by simp)
    next =>
      rcases ofPlainWord_cases w with ⟨_, hw⟩ | ⟨_, hw⟩ | ⟨_, hw⟩ | hw
      all_goals
        rw [hw] at h
        exact absurd h (by simp)
  · rintro rfl
    cases m <;> decide +kernel

/-- The word starts with a label and goes on. -/
def IsOverlongLabel (w : List Char) : Prop :=
  ∃ (m : Special) (rest : List Char), rest ≠ [] ∧ w = m.letters ++ rest

/-- A word that starts with a label and goes on means nothing: no label is the beginning of another
one. -/
theorem ofWord_of_isOverlongLabel {w : List Char} (h : IsOverlongLabel w) :
    ofWord w = other (String.ofList w) := by
  obtain ⟨m, rest, hrest, rfl⟩ := h
  have hnone : Special.ofWord? (m.letters ++ rest) = none := by
    cases hlabel : Special.ofWord? (m.letters ++ rest) with
    | none => rfl
    | some m' =>
      have hdrop := dropPrefix?_append m.letters rest
      rw [Special.ofWord?_eq_some_iff.1 hlabel] at hdrop
      have key : dropPrefix? m.letters m'.letters ≠ some rest := by
        cases m <;> cases m' <;> simp [Special.letters, Special.name, dropPrefix?, hrest.symm]
      exact absurd hdrop key
  obtain ⟨s, hs⟩ : ∃ s, m.letters ++ rest = '/' :: s := by cases m <;> exact ⟨_, rfl⟩
  rw [hs] at hnone ⊢
  rw [ofWord, hnone]

/-! ## The six shapes -/

/-- What is accepted as a flag is the flag of that name. -/
theorem ofWord_of_accepts_flag {w : List Char} (h : ArgKind.flag.accepts w = true) :
    ∃ name, w = '$' :: name ∧ ofWord w = flag (String.ofList name) := by
  simp only [ArgKind.accepts] at h
  split at h
  next name =>
    rw [Bool.and_eq_true, bne_iff_ne] at h
    exact ⟨name, rfl, by rw [ofWord, if_neg h.1]⟩
  next => exact absurd h (by decide)

/-- What is accepted as a text is the text between its quotation marks. -/
theorem ofWord_of_accepts_text {w : List Char} (h : ArgKind.text.accepts w = true) :
    ∃ t, w = '"' :: (t ++ ['"']) ∧ ofWord w = text (String.ofList t) := by
  simp only [ArgKind.accepts] at h
  split at h
  next rest =>
    rw [Bool.and_eq_true, beq_iff_eq, List.getLast?_eq_some_iff] at h
    obtain ⟨⟨t, rfl⟩, -⟩ := h
    exact ⟨t, rfl, ofWord_eq_text_iff.2 ⟨t ++ ['"'], rfl, by rw [chop_concat]⟩⟩
  next => exact absurd h (by decide)

/-- What is accepted as a clause or a negation is one, and nothing else is. -/
theorem accepts_conditionsEffects_iff {w : List Char} :
    ArgKind.conditionsEffects.accepts w = true ↔ ∃ g, ofWord w = guard g := by
  simp only [ArgKind.accepts, Bool.or_eq_true, beq_iff_eq, Option.isSome_iff_exists,
    ofWord_eq_guard_iff, Guard.ofWord?_eq_some_iff]
  constructor
  · rintro (hneg | ⟨⟨k, value⟩, hopen⟩)
    · exact ⟨.negate, Or.inl ⟨hneg, rfl⟩⟩
    · exact ⟨_, Or.inr ⟨k, value, (ClauseKind.opening?_eq_some_iff.1 hopen).2, rfl⟩⟩
  · rintro ⟨g, ⟨hneg, -⟩ | ⟨k, value, hw, -⟩⟩
    · exact Or.inl hneg
    · exact Or.inr ⟨(k, value), ClauseKind.opening?_eq_some_iff.2 ⟨k.mem_all, hw⟩⟩

/-- What is accepted as a label is a text, a special label, or a special label that goes on. -/
theorem accepts_textOrSpecial_iff {w : List Char} :
    ArgKind.textOrSpecial.accepts w = true ↔
      (∃ t, ofWord w = text t) ∨ (∃ m, ofWord w = special m) ∨ IsOverlongLabel w := by
  simp only [ArgKind.accepts, Bool.or_eq_true, List.any_eq_true, startsWith_iff]
  constructor
  · rintro (⟨rest, rfl⟩ | ⟨m, -, rest, rfl⟩)
    · exact Or.inl ⟨_, rfl⟩
    · by_cases hrest : rest = []
      · refine Or.inr (Or.inl ⟨m, ofWord_eq_special_iff.2 ?_⟩)
        rw [hrest, List.append_nil]
      · exact Or.inr (Or.inr ⟨m, rest, hrest, rfl⟩)
  · rintro (⟨t, ht⟩ | ⟨m, hm⟩ | ⟨m, rest, -, rfl⟩)
    · obtain ⟨rest, rfl, -⟩ := ofWord_eq_text_iff.1 ht
      exact Or.inl ⟨rest, rfl⟩
    · exact Or.inr ⟨m, by cases m <;> decide, [], by rw [ofWord_eq_special_iff.1 hm, List.append_nil]⟩
    · exact Or.inr ⟨m, by cases m <;> decide, rest, rfl⟩

/-- **The six shapes of arguments and their tokens.** On every word. The last line is where the two
views part: what passes as a label without being one is a special label that goes on, and it means
nothing to the reader. -/
theorem ofWord_of_accepts (w : List Char) :
    (ArgKind.page.accepts w = true →
      (∃ name, w = '@' :: name ∧ ofWord w = page (String.ofList name)) ∨
        ∃ t, ofWord w = metaTarget t) ∧
    (ArgKind.flag.accepts w = true → ∃ name, w = '$' :: name ∧ ofWord w = flag (String.ofList name)) ∧
    (ArgKind.text.accepts w = true →
      ∃ t, w = '"' :: (t ++ ['"']) ∧ ofWord w = text (String.ofList t)) ∧
    (ArgKind.time.accepts w = true ↔ ∃ t, ofWord w = time t) ∧
    (ArgKind.conditionsEffects.accepts w = true ↔ ∃ g, ofWord w = guard g) ∧
    (ArgKind.textOrSpecial.accepts w = true ↔ (∃ t, ofWord w = text t) ∨
      (∃ m, ofWord w = special m) ∨ IsOverlongLabel w) ∧
    (IsOverlongLabel w → ofWord w = other (String.ofList w)) := by
  refine ⟨fun h => ?_, ofWord_of_accepts_flag, ofWord_of_accepts_text, accepts_time_iff,
    accepts_conditionsEffects_iff, accepts_textOrSpecial_iff, ofWord_of_isOverlongLabel⟩
  rcases ofWord_of_accepts_page h with ⟨name, hw, -, -, htoken⟩ | ⟨t, -, htoken⟩
  · exact Or.inl ⟨name, hw, htoken⟩
  · exact Or.inr ⟨t, htoken⟩

/-- A word of a line that passes as a label and is neither a text nor a special label. -/
theorem accepts_overlongWord :
    '\n' ∉ "IS /SAMEx @a".toList ∧ "/SAMEx".toList ∈ words "IS /SAMEx @a".toList ∧
      ArgKind.textOrSpecial.accepts "/SAMEx".toList = true ∧
      ofWord "/SAMEx".toList = other "/SAMEx" := by
  decide +kernel

end Token

end Gamebook
