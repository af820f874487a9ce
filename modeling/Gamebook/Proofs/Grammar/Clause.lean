import Gamebook.Proofs.Grammar.Keyword
import Gamebook.Proofs.Text.Pieces
import Gamebook.Script.Token

/-!
Gamebook.Proofs.Grammar.Clause — clause-shaped words and the clauses that they stand for.

The name of a clause ends at its colon, and no name holds one. So the opening of a clause can be
read off a text in one way only (`opening?_eq_some_iff`), and a clause-shaped word, which goes on
as long as characters of a list of flags follow, ends in one place only (`clauseWord?_append`).

`Guard.ofWord?_eq_some_iff` says what a reader makes of a word.
-/

namespace Gamebook

open Text

/-! ## Openings -/

namespace ClauseKind

theorem mem_all (k : ClauseKind) : k ∈ all := by
  rcases k with p | p <;> cases p <;> decide

theorem letters_injective {j k : ClauseKind} (h : j.letters = k.letters) : j = k := by
  have key : ∀ j ∈ all, ∀ k ∈ all, j.letters = k.letters → j = k := by decide
  exact key j (mem_all j) k (mem_all k) h

/-- Names of clauses are small letters, with a hyphen in some. -/
theorem plain_of_mem_letters (k : ClauseKind) : ∀ c ∈ k.letters, c.isLower = true ∨ c = '-' := by
  have key : ∀ k ∈ all, ∀ c ∈ k.letters, c.isLower = true ∨ c = '-' := by decide
  exact key k (mem_all k)

theorem colon_notMem_letters (k : ClauseKind) : ':' ∉ k.letters := fun h =>
  (plain_of_mem_letters k ':' h).elim (fun hl => absurd hl (by decide)) (fun he => absurd he (by decide))

/-- A text opens with one clause at most. -/
theorem eq_of_opening_append {j k : ClauseKind} {r s : List Char}
    (h : j.opening ++ r = k.opening ++ s) : j = k ∧ r = s := by
  have htake : ∀ (i : ClauseKind) (t : List Char),
      (i.opening ++ t).takeWhile (· != ':') = i.letters := by
    intro i t
    have hall : ∀ c ∈ i.letters, (c != ':') = true := by
      intro c hc
      exact bne_iff_ne.2 fun he => colon_notMem_letters i (he ▸ hc)
    rw [opening, List.append_assoc, List.takeWhile_append_of_pos hall]
    simp
  have hjk : j = k := letters_injective (by rw [← htake j r, ← htake k s, h])
  subst hjk
  exact ⟨rfl, List.append_cancel_left h⟩

theorem opening?_eq_some_iff {kinds : List ClauseKind} {s rest : List Char} {k : ClauseKind} :
    opening? kinds s = some (k, rest) ↔ k ∈ kinds ∧ s = k.opening ++ rest := by
  constructor
  · exact opening?_eq_some
  · rintro ⟨hk, rfl⟩
    cases h : opening? kinds (k.opening ++ rest) with
    | none =>
      have hnone := List.findSome?_eq_none_iff.1 h k hk
      rw [dropPrefix?_append] at hnone
      exact absurd hnone (by simp)
    | some found =>
      obtain ⟨j, r⟩ := found
      obtain ⟨rfl, rfl⟩ := eq_of_opening_append (opening?_eq_some h).2
      rfl

theorem ofName?_eq_some_iff {name : List Char} {k : ClauseKind} :
    ofName? name = some k ↔ name = k.letters :=
  find?_written_iff mem_all fun _ _ _ _ => letters_injective

end ClauseKind

/-! ## Clause-shaped words -/

/-- The word is `mode:not`, or a clause with a list of flags. -/
def IsClauseWord (w : List Char) : Prop :=
  w = negation ∨ ∃ (k : ClauseKind) (flags : List Char),
    w = k.opening ++ flags ∧ ∀ c ∈ flags, isFlagListChar c = true

/-- The characters of clause-shaped words: word characters and a few marks, but no blanks, quotation
marks or slashes. -/
theorem IsClauseWord.plain {w : List Char} (h : IsClauseWord w) :
    ∀ c ∈ w, isWordChar c = true ∨ c ∈ ['-', ':', '$', ','] := by
  intro c hc
  rcases h with rfl | ⟨k, flags, rfl, hflags⟩
  · have key : ∀ c ∈ negation, isWordChar c = true ∨ c ∈ ['-', ':', '$', ','] := by decide
    exact key c hc
  · rw [ClauseKind.opening, List.append_assoc, List.mem_append, List.mem_append] at hc
    rcases hc with hc | hc | hc
    · rcases k.plain_of_mem_letters c hc with hl | rfl
      · exact Or.inl (isWordChar_of_isLower hl)
      · exact Or.inr (by decide)
    · rw [List.mem_singleton.1 hc]
      exact Or.inr (by decide)
    · have := hflags c hc
      simp only [isFlagListChar, Bool.or_eq_true, beq_iff_eq] at this
      rcases this with (rfl | rfl) | hw
      · exact Or.inr (by decide)
      · exact Or.inr (by decide)
      · exact Or.inl hw

theorem IsClauseWord.notMem {w : List Char} (h : IsClauseWord w) {c : Char}
    (hw : isWordChar c = false) (hc : c ∉ ['-', ':', '$', ',']) : c ∉ w := by
  intro hm
  rcases h.plain c hm with hw' | hc'
  · rw [hw] at hw'
    exact absurd hw' (by decide)
  · exact hc hc'

theorem IsClauseWord.isBlank {w : List Char} (h : IsClauseWord w) : ∀ c ∈ w, isBlank c = false := by
  intro c hc
  rcases h.plain c hc with hw | hm
  · exact isBlank_of_isWordChar hw
  · have key : ∀ c ∈ ['-', ':', '$', ','], Text.isBlank c = false := by decide
    exact key c hm

theorem IsClauseWord.ne_nil {w : List Char} (h : IsClauseWord w) : w ≠ [] := by
  rcases h with rfl | ⟨k, flags, rfl, -⟩
  · decide
  · simp [ClauseKind.opening]

/-- A clause-shaped word starts with a small letter, so it is neither a keyword nor a marker nor a
word with a sigil. -/
theorem IsClauseWord.head {w : List Char} (h : IsClauseWord w) :
    ∃ c r, w = c :: r ∧ c.isLower = true := by
  rcases h with rfl | ⟨k, flags, rfl, -⟩
  · exact ⟨_, _, rfl, by decide⟩
  · have key : ∀ k ∈ ClauseKind.all, k.letters ≠ [] ∧ ∀ c ∈ k.letters.head?, c.isLower = true := by
      decide
    obtain ⟨hne, hlower⟩ := key k k.mem_all
    obtain ⟨c, r, hr⟩ := List.exists_cons_of_ne_nil hne
    refine ⟨c, r ++ [':'] ++ flags, ?_, hlower c (by rw [hr]; rfl)⟩
    rw [ClauseKind.opening, hr]
    simp

theorem isClauseWord_of_clauseWord? {s w rest : List Char} (h : clauseWord? s = some (w, rest)) :
    IsClauseWord w := by
  rw [clauseWord?] at h
  split at h
  next r hr =>
    cases h
    exact Or.inl rfl
  next =>
    obtain ⟨⟨k, r⟩, -, he⟩ := Option.map_eq_some_iff.1 h
    cases he
    exact Or.inr ⟨k, _, rfl, fun c hc => List.mem_takeWhile_imp hc⟩

/-- No clause starts like the negation. -/
theorem ClauseKind.dropPrefix?_negation (k : ClauseKind) (value : List Char) :
    dropPrefix? negation (k.opening ++ value) = none := by
  have key : ∀ k ∈ all, k.opening.head? ≠ some 'm' ∧ k.opening ≠ [] := by decide
  obtain ⟨hhead, hne⟩ := key k k.mem_all
  cases h : dropPrefix? negation (k.opening ++ value) with
  | none => rfl
  | some r =>
    have heq := dropPrefix?_eq_some_iff.1 h
    cases hk : k.opening with
    | nil => exact absurd hk hne
    | cons c o =>
      rw [hk] at heq hhead
      exact absurd (congrArg List.head? heq) hhead

/-- A clause-shaped word is found in front of anything that cannot continue its list of flags. -/
theorem clauseWord?_append {w : List Char} (hw : IsClauseWord w) {rest : List Char}
    (hrest : ∀ c ∈ rest.head?, isFlagListChar c = false) :
    clauseWord? (w ++ rest) = some (w, rest) := by
  rcases hw with rfl | ⟨k, flags, rfl, hflags⟩
  · rw [clauseWord?, dropPrefix?_append]
  · have hneg : dropPrefix? negation (k.opening ++ flags ++ rest) = none := by
      rw [List.append_assoc]
      exact k.dropPrefix?_negation _
    have hopen : ClauseKind.opening? ClauseKind.all (k.opening ++ flags ++ rest) =
        some (k, flags ++ rest) := by
      rw [List.append_assoc]
      exact ClauseKind.opening?_eq_some_iff.2 ⟨k.mem_all, rfl⟩
    have hstop : rest.takeWhile isFlagListChar = [] ∧ rest.dropWhile isFlagListChar = rest := by
      cases rest with
      | nil => exact ⟨rfl, rfl⟩
      | cons c rest => simp [hrest c rfl]
    rw [clauseWord?, hneg]
    simp only [hopen, Option.map_some, List.takeWhile_append_of_pos hflags,
      List.dropWhile_append_of_pos hflags, hstop.1, hstop.2, List.append_nil]

/-- Blanks and markers do not belong to lists of flags. -/
theorem isFlagListChar_of_isBlank {c : Char} (h : isBlank c = true) : isFlagListChar c = false := by
  have hm := ne_mark_of_isBlank h
  simp [isFlagListChar, isWordChar_of_isBlank h, hm.2.2.2.1, hm.2.2.2.2.2.2.1]

/-! ## Guards -/

/-- At its first colon a word splits in one way. -/
theorem splitAtColon?_append {name : List Char} (h : ':' ∉ name) (value : List Char) :
    splitAtColon? (name ++ ':' :: value) = some (name, value) := by
  have hall : ∀ c ∈ name, (c != ':') = true := by
    intro c hc
    exact bne_iff_ne.2 fun he => h (he ▸ hc)
  rw [splitAtColon?, List.dropWhile_append_of_pos hall, List.takeWhile_append_of_pos hall]
  simp

theorem splitAtColon?_eq_some_iff {word name value : List Char} :
    splitAtColon? word = some (name, value) ↔ word = name ++ ':' :: value ∧ ':' ∉ name := by
  constructor
  · intro h
    rw [splitAtColon?] at h
    split at h
    next => exact absurd h (by simp)
    next c rest hdrop =>
      simp only [Option.some.injEq, Prod.mk.injEq] at h
      obtain ⟨rfl, rfl⟩ := h
      have hc : c = ':' := by
        have := List.head?_dropWhile_not (· != ':') word
        rw [hdrop] at this
        simpa using this
      subst hc
      refine ⟨?_, fun hm => ?_⟩
      · rw [← hdrop, List.takeWhile_append_dropWhile]
      · have := List.mem_takeWhile_imp hm
        simp at this
  · rintro ⟨rfl, h⟩
    exact splitAtColon?_append h value

namespace Guard

theorem ofWord?_negation : ofWord? negation = some negate := if_pos rfl

/-- **What a reader makes of a word**: a negation, or a clause with whatever follows its colon. -/
theorem ofWord?_eq_some_iff {w : List Char} {g : Guard} :
    ofWord? w = some g ↔ (w = negation ∧ g = negate) ∨
      ∃ (k : ClauseKind) (value : List Char),
        w = k.opening ++ value ∧ g = clause ⟨k, flagList value⟩ := by
  have hne : ∀ (k : ClauseKind) (value : List Char), k.opening ++ value ≠ negation := by
    intro k value h
    have hneg : negation = "mode".toList ++ ':' :: "not".toList := by decide
    rw [ClauseKind.opening, List.append_assoc, List.singleton_append, hneg] at h
    have hs := congrArg splitAtColon? h
    rw [splitAtColon?_append k.colon_notMem_letters, splitAtColon?_append (by decide)] at hs
    have key : ∀ k ∈ ClauseKind.all, k.letters ≠ "mode".toList := by decide
    exact key k k.mem_all (by simpa using (congrArg Prod.fst (Option.some.inj hs)))
  constructor
  · intro h
    rw [ofWord?] at h
    split at h
    next hw => exact Or.inl ⟨hw, (Option.some.inj h).symm⟩
    next =>
      cases hs : splitAtColon? w with
      | none => rw [hs] at h; exact absurd h (by simp)
      | some found =>
        obtain ⟨name, value⟩ := found
        rw [hs] at h
        obtain ⟨k, hk, rfl⟩ := Option.map_eq_some_iff.1 h
        obtain ⟨rfl, -⟩ := splitAtColon?_eq_some_iff.1 hs
        rw [ClauseKind.ofName?_eq_some_iff.1 hk]
        exact Or.inr ⟨k, value, by simp [ClauseKind.opening], rfl⟩
  · rintro (⟨rfl, rfl⟩ | ⟨k, value, rfl, rfl⟩)
    · exact ofWord?_negation
    · have hs : splitAtColon? (k.opening ++ value) = some (k.letters, value) := by
        rw [ClauseKind.opening, List.append_assoc, List.singleton_append]
        exact splitAtColon?_append k.colon_notMem_letters value
      rw [ofWord?, if_neg (hne k value), hs]
      simp [ClauseKind.ofName?_eq_some_iff.2 rfl]

end Guard

end Gamebook
