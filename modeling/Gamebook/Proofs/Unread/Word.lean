import Gamebook.Check.Argument
import Gamebook.Check.Clause
import Gamebook.Check.Declaration
import Gamebook.Check.Menu
import Gamebook.Proofs.Pattern.Stop
import Gamebook.Proofs.Script.Token
import Gamebook.Proofs.Unread.Place

/-!
Gamebook.Proofs.Unread.Word — what is looked at in a word with a quoted text.

What the checks ask of a word is decided in front of its first quotation mark (`LooksInFront`): a
sigil, a name, the opening of a clause end there at the latest. The one question that is asked of a
quoted text itself is how it starts and how it ends. Two words that differ in the text of one
literal (`Reworded`) therefore get the same answers.

What is marked in a word, if not all of it, is a name with its sigil or a negation, and this is a
front without quotation marks (`HasFront`).
-/

namespace Gamebook

open Text

/-! ## Looking in front of a mark -/

/-- The answer is decided in front of the first quotation mark. -/
def LooksInFront {α : Type} (f : List Char → α) : Prop :=
  ∀ u x x', f (u ++ '"' :: x) = f (u ++ '"' :: x')

/-- The words are the same, or they differ in the text of one literal. -/
inductive Reworded : List Char → List Char → Prop
  /-- The words are the same. -/
  | refl (w : List Char) : Reworded w w
  /-- They differ in the text of one literal. -/
  | literal (u : List Char) {t t' : List Char} (v : List Char) (ht : '\n' ∉ t) (ht' : '\n' ∉ t') :
      Reworded (u ++ '"' :: (t ++ '"' :: v)) (u ++ '"' :: (t' ++ '"' :: v))

theorem Reworded.eq_of_looksInFront {α : Type} {f : List Char → α} (hf : LooksInFront f)
    {w w' : List Char} (h : Reworded w w') : f w = f w' := by
  cases h with
  | refl => rfl
  | literal u v _ _ => exact hf u _ _

/-- What fails for every word with a quotation mark is decided by the first one. -/
theorem looksInFront_of_quote_notMem {f : List Char → Bool}
    (hf : ∀ w, f w = true → '"' ∉ w) : LooksInFront f := by
  have hfalse : ∀ u x, f (u ++ '"' :: x) = false := by
    intro u x
    cases h : f (u ++ '"' :: x) with
    | false => rfl
    | true => exact absurd (by simp) (hf _ h)
  intro u x x'
  rw [hfalse, hfalse]

/-! ## Names -/

theorem looksInFront_declaredName? (kind : NameKind) : LooksInFront (declaredName? kind) := by
  intro u x x'
  cases u with
  | nil =>
    have hsigil : '"' ≠ kind.sigil := by cases kind <;> decide
    simp only [List.nil_append, declaredName?, hsigil, false_and, if_false]
  | cons c u => simp only [List.cons_append, declaredName?, wordRun_append_stop isStop_quote]

theorem looksInFront_commandName? : LooksInFront commandName? := by
  intro u x x'
  cases u with
  | nil => rfl
  | cons c u =>
    have hrun : ∀ x, (u ++ '"' :: x).takeWhile isCommandChar = u.takeWhile isCommandChar :=
      takeWhile_append_cons (by decide) u
    by_cases hc : c = '#'
    · subst hc
      simp only [List.cons_append, commandName?, hrun]
    · have hnone : ∀ r, commandName? (c :: r) = none := by
        intro r
        unfold commandName?
        split
        next heq => exact absurd (List.cons.inj heq).1 hc
        next => rfl
      rw [List.cons_append, List.cons_append, hnone, hnone]

/-- The word starts with this text, which holds no quotation mark. -/
def HasFront (w word : List Char) : Prop := '"' ∉ w ∧ w <+: word

theorem hasFront_takeWhile {p : Char → Bool} (hp : p '"' = false) {c : Char} (hc : '"' ≠ c)
    (rest : List Char) : HasFront (c :: rest.takeWhile p) (c :: rest) := by
  refine ⟨?_, List.cons_prefix_cons.2 ⟨rfl, List.takeWhile_prefix p⟩⟩
  rw [List.mem_cons, not_or]
  refine ⟨hc, fun hm => ?_⟩
  rw [List.mem_takeWhile_imp hm] at hp
  exact absurd hp (by decide)

/-- A name is declared in front of any quotation mark. -/
theorem front_of_declaredName? {kind : NameKind} {word name : List Char}
    (h : declaredName? kind word = some name) : HasFront (kind.sigil :: name) word := by
  unfold declaredName? at h
  split at h
  next c rest =>
    split at h
    next hc =>
      obtain rfl := Option.some.inj h
      obtain rfl := hc.1
      exact hasFront_takeWhile isStop_quote.isWordChar (by cases kind <;> decide) rest
    next => exact absurd h (by simp)
  next => exact absurd h (by simp)

/-- A command is named in front of any quotation mark. -/
theorem front_of_commandName? {word name : List Char} (h : commandName? word = some name) :
    HasFront ('#' :: name) word := by
  unfold commandName? at h
  split at h
  next rest =>
    split at h
    next => exact absurd h (by simp)
    next =>
      obtain rfl := Option.some.inj h
      exact hasFront_takeWhile (by decide) (by decide) rest
  next => exact absurd h (by simp)

theorem looksInFront_fits (form : ValueForm) : LooksInFront form.fits := by
  intro u x x'
  cases u <;> rfl

/-! ## Labels -/

theorem looksInFront_ofWord? : LooksInFront Special.ofWord? := by
  have hnone : ∀ u x, Special.ofWord? (u ++ '"' :: x) = none := by
    intro u x
    cases h : Special.ofWord? (u ++ '"' :: x) with
    | none => rfl
    | some m =>
      refine absurd ?_ (isStop_quote.notMem_special m)
      rw [← Special.ofWord?_eq_some_iff.1 h]
      simp
  intro u x x'
  rw [hnone, hnone]

/-! ## Clauses -/

theorem looksInFront_isSome_opening? (kinds : List ClauseKind) :
    LooksInFront fun w => (ClauseKind.opening? kinds w).isSome := by
  intro u x x'
  simp only [ClauseKind.opening?_append_stop isStop_quote, Option.isSome_map]

theorem looksInFront_isClauseWord : LooksInFront isClauseWord := by
  intro u x x'
  rw [isClauseWord, isClauseWord, clauseWord?_append_stop isStop_quote, clauseWord?_append_stop isStop_quote,
    Option.isSome_map, Option.isSome_map, startsWith_append_cons (by decide),
    startsWith_append_cons (by decide)]

/-- A word with a literal is no negation alone. -/
theorem isDangling_append_quote (u x : List Char) (behind : List Segment) :
    isDangling (u ++ '"' :: x) behind = false := by
  unfold isDangling
  rw [dropPrefix?_append_cons x u (by decide)]
  cases dropPrefix? negation u with
  | none => rfl
  | some r =>
    cases r with
    | nil => rfl
    | cons c r =>
      rw [Option.map_some]
      split
      next h => exact absurd (Option.some.inj h) (by simp)
      next h => exact absurd (Option.some.inj h) (by simp)
      next h => exact absurd (Option.some.inj h) (by simp)
      next => rfl

/-- A negation stands in front of any quotation mark. -/
theorem front_of_isDangling {word : List Char} {behind : List Segment}
    (h : isDangling word behind = true) : HasFront negation word := by
  unfold isDangling at h
  cases hword : dropPrefix? negation word with
  | none => rw [hword] at h; exact absurd h (by simp)
  | some r => exact ⟨by decide, r, (dropPrefix?_eq_some_iff.1 hword).symm⟩

/-! ## Shapes of arguments -/

/-- Pages, flags and time limits have no quotation mark. -/
theorem looksInFront_accepts {kind : ArgKind} (hkind : kind ≠ .text) :
    LooksInFront kind.accepts := by
  cases kind with
  | text => exact absurd rfl hkind
  | page =>
    refine looksInFront_of_quote_notMem fun w h => ?_
    rcases Token.ofWord_of_accepts_page h with ⟨name, rfl, -, hname, -⟩ | ⟨t, rfl, -⟩
    · intro hmem
      rcases List.mem_cons.1 hmem with hq | hq
      · exact absurd hq (by decide)
      · exact absurd (hname _ hq) (by decide)
    · cases t <;> decide
  | flag =>
    refine looksInFront_of_quote_notMem fun w h => ?_
    simp only [ArgKind.accepts] at h
    split at h
    next name =>
      rw [Bool.and_eq_true, List.all_eq_true] at h
      intro hmem
      rcases List.mem_cons.1 hmem with hq | hq
      · exact absurd hq (by decide)
      · exact absurd (h.2 _ hq) (by decide)
    next => exact absurd h (by decide)
  | time =>
    refine looksInFront_of_quote_notMem fun w h => ?_
    simp only [ArgKind.accepts] at h
    split at h
    next name hname =>
      obtain ⟨t, ht⟩ := Option.isSome_iff_exists.1 h
      rw [dropPrefix?_eq_some_iff.1 hname, TimeLimit.ofName?_eq_some_iff.1 ht]
      cases t <;> decide
    next => exact absurd h (by decide)
  | textOrSpecial =>
    intro u x x'
    have hspecial : ∀ x, (Special.all.any fun s => startsWith s.letters (u ++ '"' :: x)) =
        Special.all.any fun s => startsWith s.letters u := by
      intro x
      simp only [startsWith_append_cons (isStop_quote.notMem_special _)]
    have hquote : startsWith ['"'] (u ++ '"' :: x) = startsWith ['"'] (u ++ '"' :: x') := by
      cases u with
      | nil => rfl
      | cons c u =>
        simp only [List.cons_append, startsWith, dropPrefix?]
        split <;> rfl
    rw [ArgKind.accepts, ArgKind.accepts, hspecial, hspecial, hquote]
  | conditionsEffects =>
    intro u x x'
    have hnegation : ∀ x, (u ++ '"' :: x == negation) = false := by
      intro x
      rw [beq_eq_false_iff_ne]
      intro heq
      have hmem : '"' ∈ negation := by rw [← heq]; simp
      exact absurd hmem (by decide)
    rw [ArgKind.accepts, ArgKind.accepts, hnegation, hnegation]
    exact congrArg _ (looksInFront_isSome_opening? ClauseKind.all u x x')

/-- Of a quoted text, only its ends are looked at. -/
theorem accepts_text_literal (u : List Char) {t t' : List Char} (v : List Char) (ht : '\n' ∉ t)
    (ht' : '\n' ∉ t') :
    ArgKind.text.accepts (u ++ '"' :: (t ++ '"' :: v)) =
      ArgKind.text.accepts (u ++ '"' :: (t' ++ '"' :: v)) := by
  have hlast : ∀ a s : List Char, (a ++ (s ++ '"' :: v)).getLast? = ('"' :: v).getLast? := by
    intro a s
    rw [← List.append_assoc, List.getLast?_append]
    cases hv : ('"' :: v).getLast? with
    | none => exact absurd (List.getLast?_eq_none_iff.1 hv) (by simp)
    | some c => rfl
  have hnewline : ∀ a s : List Char, '\n' ∉ s →
      (a ++ (s ++ '"' :: v)).contains '\n' = (a ++ '"' :: v).contains '\n' := by
    intro a s hs
    simp [hs]
  have hfrom : ∀ a : List Char,
      ((a ++ (t ++ '"' :: v)).getLast? == some '"' && !(a ++ (t ++ '"' :: v)).contains '\n') =
        ((a ++ (t' ++ '"' :: v)).getLast? == some '"' &&
          !(a ++ (t' ++ '"' :: v)).contains '\n') := by
    intro a
    rw [hlast, hlast, hnewline a t ht, hnewline a t' ht']
  cases u with
  | nil => exact hfrom []
  | cons c u =>
    have hcons := hfrom (u ++ ['"'])
    simp only [List.append_assoc, List.singleton_append] at hcons
    by_cases hc : c = '"'
    · subst hc
      exact hcons
    · have hfalse : ∀ r, ArgKind.text.accepts (c :: r) = false := by
        intro r
        simp only [ArgKind.accepts]
        split
        next heq => exact absurd (List.cons.inj heq).1 hc
        next => rfl
      rw [List.cons_append, List.cons_append, hfalse, hfalse]

theorem accepts_eq_of_reworded (kind : ArgKind) {w w' : List Char} (h : Reworded w w') :
    kind.accepts w = kind.accepts w' := by
  by_cases hkind : kind = .text
  · subst hkind
    cases h with
    | refl => rfl
    | literal u v ht ht' => exact accepts_text_literal u v ht ht'
  · exact h.eq_of_looksInFront (looksInFront_accepts hkind)

end Gamebook
