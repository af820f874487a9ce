import Gamebook.Proofs.Pattern.Word
import Gamebook.Proofs.Text.Quotation

/-!
Gamebook.Proofs.Pattern.Join — clauses with another clause behind a comma.

A list of flags and the comma behind it consist of the same characters, and the name of the other
clause may look like one more flag. So the search for joined clauses tries one comma after the other.
`IsJoined` says without a search which texts open with joined clauses, and the search finds these:

* `isSome_joinedClauses?_iff`: at the start of a text;
* `scan_join_ne_nil_iff`: anywhere in a text, where neither a word character nor a hyphen stands in
  front.
-/

namespace Gamebook

open Text

/-! ## Joined clauses -/

/-- The text opens with a clause of kind `k`: its name, a colon and a list of flags that is not
empty. Behind a comma, a clause of kind `j` is joined to it. -/
def IsJoined (k j : ClauseKind) (s : List Char) : Prop :=
  ∃ flags rest, flags ≠ [] ∧ (∀ c ∈ flags, isFlagListChar c = true) ∧
    s = k.opening ++ flags ++ ',' :: (j.opening ++ rest)

theorem isSome_commaOpening?_iff {s : List Char} :
    (commaOpening? s).isSome ↔ ∃ (j : ClauseKind) (rest : List Char),
      s = ',' :: (j.opening ++ rest) := by
  constructor
  · intro h
    obtain ⟨tail, htail⟩ := Option.isSome_iff_exists.1 h
    unfold commaOpening? at htail
    split at htail
    next s =>
      obtain ⟨body, hbody, -⟩ := Option.map_eq_some_iff.1 htail
      obtain ⟨j, -, rfl, rest, rfl⟩ := Pattern.clauseOpening?_eq_some hbody
      exact ⟨j, rest, rfl⟩
    next => exact absurd htail (by simp)
  · rintro ⟨j, rest, rfl⟩
    rw [commaOpening?, clauseOpening?,
      ClauseKind.opening?_eq_some_iff.2 ⟨ClauseKind.mem_all j, rfl⟩]
    rfl

/-- Behind the colon of a clause the comma can stand behind any flag of the list. -/
theorem isSome_joinTail?_iff : ∀ {s : List Char}, (joinTail? s).isSome ↔
    ∃ flags, flags ≠ [] ∧ (∀ c ∈ flags, isFlagListChar c = true) ∧
      ∃ (j : ClauseKind) (rest : List Char), s = flags ++ ',' :: (j.opening ++ rest)
  | [] => by
      constructor
      · intro h
        exact absurd h (by simp [joinTail?])
      · rintro ⟨flags, -, -, j, rest, hs⟩
        exact absurd hs (by simp)
  | c :: s => by
      have hstep : (joinTail? (c :: s)).isSome ↔
          isFlagListChar c = true ∧ ((joinTail? s).isSome ∨ (commaOpening? s).isSome) := by
        rw [joinTail?]
        cases isFlagListChar c <;> cases joinTail? s <;> simp
      rw [hstep, isSome_joinTail?_iff, isSome_commaOpening?_iff]
      constructor
      · rintro ⟨hc, ⟨flags, -, hflags, j, rest, rfl⟩ | ⟨j, rest, rfl⟩⟩
        · exact ⟨c :: flags, by simp, List.forall_mem_cons.2 ⟨hc, hflags⟩, j, rest, rfl⟩
        · exact ⟨[c], by simp, List.forall_mem_singleton.2 hc, j, rest, rfl⟩
      · rintro ⟨flags, hne, hflags, j, rest, hs⟩
        obtain ⟨d, flags, rfl⟩ := List.exists_cons_of_ne_nil hne
        obtain ⟨rfl, rfl⟩ := List.cons.inj hs
        obtain ⟨hc, hflags⟩ := List.forall_mem_cons.1 hflags
        refine ⟨hc, ?_⟩
        by_cases hnil : flags = []
        · exact Or.inr ⟨j, rest, by rw [hnil]; rfl⟩
        · exact Or.inl ⟨flags, hnil, hflags, j, rest, rfl⟩

/-- **The search at the start of a text** finds joined clauses, whichever comma joins them. -/
theorem isSome_joinedClauses?_iff {kinds : List ClauseKind} {s : List Char} :
    (joinedClauses? kinds s).isSome ↔ ∃ k ∈ kinds, ∃ j, IsJoined k j s := by
  constructor
  · intro h
    obtain ⟨body, hbody⟩ := Option.isSome_iff_exists.1 h
    unfold joinedClauses? at hbody
    split at hbody
    next k rest hk =>
      obtain ⟨tail, htail, -⟩ := Option.map_eq_some_iff.1 hbody
      obtain ⟨hmem, rfl⟩ := ClauseKind.opening?_eq_some hk
      obtain ⟨flags, hne, hflags, j, rest, rfl⟩ :=
        isSome_joinTail?_iff.1 (Option.isSome_iff_exists.2 ⟨tail, htail⟩)
      exact ⟨k, hmem, j, flags, rest, hne, hflags, (List.append_assoc _ _ _).symm⟩
    next => exact absurd hbody (by simp)
  · rintro ⟨k, hmem, j, flags, rest, hne, hflags, rfl⟩
    have hopen : ClauseKind.opening? kinds (k.opening ++ flags ++ ',' :: (j.opening ++ rest)) =
        some (k, flags ++ ',' :: (j.opening ++ rest)) :=
      ClauseKind.opening?_eq_some_iff.2 ⟨hmem, List.append_assoc _ _ _⟩
    rw [joinedClauses?, hopen]
    dsimp only
    rw [Option.isSome_map]
    exact isSome_joinTail?_iff.2 ⟨flags, hne, hflags, j, rest, rfl⟩

namespace IsJoined

variable {k j : ClauseKind} {s : List Char}

theorem ne_nil (h : IsJoined k j s) : s ≠ [] := by
  obtain ⟨flags, rest, -, -, rfl⟩ := h
  simp

/-- Quoted text behind the comma does not hide the clauses. -/
theorem blankQuoted_append (h : IsJoined k j s) (t : List Char) :
    IsJoined k j (blankQuotedFrom false s ++ t) := by
  obtain ⟨flags, rest, hne, hflags, rfl⟩ := h
  have hplain : '"' ∉ k.opening ++ flags ++ ',' :: j.opening := by
    have hquote : ∀ {c : Char}, IsClauseChar c → c ≠ '"' := by
      rintro c (hc | hc) rfl
      · exact absurd hc (by decide)
      · exact absurd hc (by decide)
    intro hm
    rcases List.mem_append.1 hm with hm | hm
    · rcases List.mem_append.1 hm with hm | hm
      · exact hquote (isClauseChar_of_mem_opening k _ hm) rfl
      · exact hquote (isClauseChar_of_isFlagListChar (hflags _ hm)) rfl
    · rcases List.mem_cons.1 hm with hm | hm
      · exact absurd hm (by decide)
      · exact hquote (isClauseChar_of_mem_opening j _ hm) rfl
  have hsplit : k.opening ++ flags ++ ',' :: (j.opening ++ rest) =
      k.opening ++ flags ++ ',' :: j.opening ++ rest := by simp
  refine ⟨flags, blankQuotedFrom false rest ++ t, hne, hflags, ?_⟩
  rw [hsplit, blankQuotedFrom_append, quotedAt_of_notMem hplain, blankQuotedFrom_of_notMem hplain]
  simp

/-- Each of the two clauses has a colon. -/
theorem two_le_count_colon (h : IsJoined k j s) : 2 ≤ s.count ':' := by
  obtain ⟨flags, rest, -, -, rfl⟩ := h
  simp only [ClauseKind.opening, List.count_append, List.count_cons, List.count_nil, beq_self_eq_true,
    if_true]
  omega

end IsJoined

/-! ## The search -/

namespace ClauseKind

/-- The kinds that are searched for together. -/
def family : ClauseKind → List ClauseKind
  | condition _ => conditions
  | effect _ => effects

/-- The search for clauses of the family that another clause is joined to. -/
def joinPattern : ClauseKind → Pattern
  | condition _ => .conditionJoin
  | effect _ => .effectJoin

theorem mem_family (k : ClauseKind) : k ∈ k.family := by
  rcases k with p | p <;> cases p <;> decide

end ClauseKind

/-- The character ends what stands in front of a clause: it is neither a word character nor a
hyphen. -/
def Separates (c : Char) : Prop := isWordChar c = false ∧ c ≠ '-'

theorem separates_of_isBlank {c : Char} (h : isBlank c = true) : Separates c :=
  ⟨isWordChar_of_isBlank h, (ne_mark_of_isBlank h).2.2.2.2.2.2.2.2⟩

/-- What is looked for on its own is found at the start, or behind one character. -/
theorem isSome_isolated?_iff {find : List Char → Option (List Char)} {b : Bool} {s : List Char} :
    (isolated? find b s).isSome ↔ (b = true ∧ (find s).isSome) ∨
      ∃ c r, s = c :: r ∧ Separates c ∧ (find r).isSome := by
  have hbehind : ∀ {c : Char} {r : List Char},
      (if isWordChar c || c == '-' then none else (find r).map fun body => ([c], body)).isSome ↔
        Separates c ∧ (find r).isSome := by
    intro c r
    by_cases hw : isWordChar c = true <;> by_cases hc : c = '-' <;> simp [Separates, hw, hc]
  unfold isolated?
  split
  next body hbody =>
    obtain ⟨hb, hfind⟩ := Option.ite_none_right_eq_some.1 hbody
    exact ⟨fun _ => Or.inl ⟨hb, by rw [hfind]; rfl⟩, fun _ => rfl⟩
  next hnone =>
    have hstart : ¬ (b = true ∧ (find s).isSome) := by
      rintro ⟨hb, hfind⟩
      rw [if_pos hb] at hnone
      rw [hnone] at hfind
      exact absurd hfind (by decide)
    cases s with
    | nil => simp [hstart]
    | cons c r =>
      rw [hbehind, or_iff_right hstart]
      constructor
      · exact fun h => ⟨c, r, rfl, h⟩
      · rintro ⟨d, r', hs, h⟩
        obtain ⟨rfl, rfl⟩ := List.cons.inj hs
        exact h

namespace Pattern

theorem scanFrom_eq_nil_iff {p : Pattern} : ∀ {s : List Char} {b : Bool} {pos : Nat},
    p.scanFrom b 0 pos s = [] ↔
      ∀ a r, s = a ++ r → r ≠ [] → p.at? (b && a.isEmpty) r = none
  | [], b, pos => by
      refine ⟨fun _ a r hs hr => ?_, fun _ => rfl⟩
      exact absurd (List.append_eq_nil_iff.1 hs.symm).2 hr
  | c :: s, b, pos => by
      have hstep : p.scanFrom b 0 pos (c :: s) = [] ↔
          p.at? b (c :: s) = none ∧ p.scanFrom false 0 (pos + c.utf8Size) s = [] := by
        rw [scanFrom]
        cases p.at? b (c :: s) <;> simp
      rw [hstep, scanFrom_eq_nil_iff]
      constructor
      · rintro ⟨hhere, hrest⟩ a r hs hr
        cases a with
        | nil =>
          obtain rfl : c :: s = r := hs
          rw [List.isEmpty_nil, Bool.and_true]
          exact hhere
        | cons d a =>
          obtain ⟨-, rfl⟩ := List.cons.inj hs
          rw [List.isEmpty_cons, Bool.and_false]
          exact hrest a r rfl hr
      · intro h
        refine ⟨?_, fun a r hs hr => ?_⟩
        · have hhere := h [] (c :: s) rfl (by simp)
          rwa [List.isEmpty_nil, Bool.and_true] at hhere
        · have hrest := h (c :: a) r (by rw [hs]; rfl) hr
          rwa [List.isEmpty_cons, Bool.and_false] at hrest

/-- **A search finds nothing only where there is nothing**: no place matches. -/
theorem scan_eq_nil_iff {p : Pattern} {s : List Char} :
    p.scan s = [] ↔ ∀ a r, s = a ++ r → r ≠ [] → p.at? a.isEmpty r = none := by
  rw [scan, scanFrom_eq_nil_iff]
  simp only [Bool.true_and]

theorem at?_joinPattern (k : ClauseKind) (b : Bool) (s : List Char) :
    k.joinPattern.at? b s = isolated? (joinedClauses? k.family) b s := by
  cases k <;> rfl

/-- **The search anywhere in a text** finds joined clauses exactly if there are some, with nothing in
front that they could go on from. -/
theorem scan_join_ne_nil_iff {k : ClauseKind} {s : List Char} :
    k.joinPattern.scan s ≠ [] ↔
      ∃ a w, s = a ++ w ∧ (∀ c ∈ a.getLast?, Separates c) ∧ ∃ i ∈ k.family, ∃ j, IsJoined i j w := by
  have hplace : k.joinPattern.scan s ≠ [] ↔ ∃ a r, s = a ++ r ∧ r ≠ [] ∧
      (isolated? (joinedClauses? k.family) a.isEmpty r).isSome := by
    rw [ne_eq, scan_eq_nil_iff]
    simp only [at?_joinPattern, not_forall, exists_prop, Option.isSome_iff_ne_none, ne_eq]
  rw [hplace]
  constructor
  · rintro ⟨a, r, rfl, -, hr⟩
    rcases isSome_isolated?_iff.1 hr with ⟨ha, hw⟩ | ⟨c, w, rfl, hc, hw⟩
    · rw [List.isEmpty_iff.1 ha]
      exact ⟨[], r, rfl, by simp, isSome_joinedClauses?_iff.1 hw⟩
    · exact ⟨a ++ [c], w, by simp, by simpa using hc, isSome_joinedClauses?_iff.1 hw⟩
  · rintro ⟨a, w, rfl, ha, i, hi, j, hjoined⟩
    have hw := isSome_joinedClauses?_iff.2 ⟨i, hi, j, hjoined⟩
    rcases List.eq_nil_or_concat a with rfl | ⟨a, c, rfl⟩
    · exact ⟨[], w, rfl, hjoined.ne_nil, isSome_isolated?_iff.2 (Or.inl ⟨rfl, hw⟩)⟩
    · refine ⟨a, c :: w, by simp, by simp, isSome_isolated?_iff.2 (Or.inr ⟨c, w, rfl, ?_, hw⟩)⟩
      exact ha c (by simp)

end Pattern

end Gamebook
