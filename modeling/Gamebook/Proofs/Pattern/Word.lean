import Gamebook.Proofs.Pattern

/-!
Gamebook.Proofs.Pattern.Word — which words a pattern matches, and where they stand.

`Pattern.Reads` says for each pattern what its lead and its body can be. `reads_of_at?` is the one
spec of all patterns: lead and body stand at the start of the text, and they are such words. Of
joined clauses it keeps only what their opening is and of which characters the rest consists.

`reads_of_mem_scan` carries it to the places of a search.
-/

namespace Gamebook

open Text

/-! ## Clauses and joined clauses -/

/-- A character of clauses and of what joins them. -/
def IsClauseChar (c : Char) : Prop := isWordChar c = true ∨ c ∈ ['-', ':', '$', ',']

theorem isClauseChar_of_mem_opening (k : ClauseKind) : ∀ c ∈ k.opening, IsClauseChar c :=
  IsClauseWord.plain (Or.inr ⟨k, [], by simp, by simp⟩)

theorem isClauseChar_of_isFlagListChar {c : Char} (h : isFlagListChar c = true) :
    IsClauseChar c := by
  simp only [isFlagListChar, Bool.or_eq_true, beq_iff_eq] at h
  rcases h with (rfl | rfl) | h
  · exact Or.inr (by decide)
  · exact Or.inr (by decide)
  · exact Or.inl h

namespace Pattern

theorem clauseOpening?_eq_some {kinds : List ClauseKind} {s body : List Char}
    (h : clauseOpening? kinds s = some body) :
    ∃ k ∈ kinds, body = ClauseKind.opening k ∧ ∃ r, s = body ++ r := by
  obtain ⟨⟨k, r⟩, hk, rfl⟩ := Option.map_eq_some_iff.1 h
  obtain ⟨hmem, hs⟩ := ClauseKind.opening?_eq_some hk
  exact ⟨k, hmem, rfl, r, hs⟩

theorem commaOpening?_eq_some {s tail : List Char} (h : commaOpening? s = some tail) :
    (∀ c ∈ tail, IsClauseChar c) ∧ ∃ r, s = tail ++ r := by
  unfold commaOpening? at h
  split at h
  next s =>
    obtain ⟨body, hbody, rfl⟩ := Option.map_eq_some_iff.1 h
    obtain ⟨k, -, rfl, r, rfl⟩ := clauseOpening?_eq_some hbody
    refine ⟨fun c hc => ?_, r, rfl⟩
    rcases List.mem_cons.1 hc with rfl | hc
    · exact Or.inr (by decide)
    · exact isClauseChar_of_mem_opening k c hc
  next => exact absurd h (by simp)

theorem joinTail?_eq_some : ∀ {s tail : List Char}, joinTail? s = some tail →
    (∀ c ∈ tail, IsClauseChar c) ∧ ∃ r, s = tail ++ r
  | [], _, h => by simp [joinTail?] at h
  | c :: s, tail, h => by
      unfold joinTail? at h
      split at h
      next hc =>
        have hcons : ∀ {t : List Char}, ((∀ d ∈ t, IsClauseChar d) ∧ ∃ r, s = t ++ r) →
            (∀ d ∈ c :: t, IsClauseChar d) ∧ ∃ r, c :: s = (c :: t) ++ r := by
          rintro t ⟨ht, r, rfl⟩
          refine ⟨fun d hd => ?_, r, rfl⟩
          rcases List.mem_cons.1 hd with rfl | hd
          · exact isClauseChar_of_isFlagListChar hc
          · exact ht d hd
        split at h
        next t ht =>
          rw [← Option.some.inj h]
          exact hcons (joinTail?_eq_some ht)
        next =>
          obtain ⟨t, ht, rfl⟩ := Option.map_eq_some_iff.1 h
          exact hcons (commaOpening?_eq_some ht)
      next => exact absurd h (by simp)

theorem joinedClauses?_eq_some {kinds : List ClauseKind} {s body : List Char}
    (h : joinedClauses? kinds s = some body) :
    (∃ k ∈ kinds, ∃ tail, body = ClauseKind.opening k ++ tail ∧ ∀ c ∈ tail, IsClauseChar c) ∧
      ∃ r, s = body ++ r := by
  unfold joinedClauses? at h
  split at h
  next k rest hk =>
    obtain ⟨tail, htail, rfl⟩ := Option.map_eq_some_iff.1 h
    obtain ⟨hplain, r, rfl⟩ := joinTail?_eq_some htail
    obtain ⟨hmem, rfl⟩ := ClauseKind.opening?_eq_some hk
    exact ⟨⟨k, hmem, tail, rfl, hplain⟩, r, by rw [List.append_assoc]⟩
  next => exact absurd h (by simp)

/-! ## The words of a pattern -/

/-- What the lead and the body of a match can be. -/
def Reads : Pattern → List Char → List Char → Prop
  | pageRef, lead, body =>
    (lead = ['@'] ∨ lead = ['@', '^']) ∧ body ≠ [] ∧ ∀ c ∈ body, isWordChar c = true
  | flagRef, lead, body => lead = ['$'] ∧ body ≠ [] ∧ ∀ c ∈ body, isWordChar c = true
  | execRef, lead, body => lead = ['#'] ∧ body ≠ [] ∧ ∀ c ∈ body, isCommandChar c = true
  | metaRef, lead, body => lead = ['@', '^'] ∧ ∃ t : MetaTarget, body = t.letters
  | timeRef, lead, body => lead = TimeLimit.sigil ∧ ∃ t : TimeLimit, body = t.letters
  | specialRef, lead, body => ∃ m : Special, lead = ['/'] ∧ body = m.letters.drop 1
  | conditionClause, lead, body =>
    lead.length ≤ 1 ∧ ∃ k ∈ ClauseKind.conditions, body = k.opening
  | effectClause, lead, body => lead.length ≤ 1 ∧ ∃ k ∈ ClauseKind.effects, body = k.opening
  | conditionJoin, lead, body => lead.length ≤ 1 ∧ ∃ k ∈ ClauseKind.conditions, ∃ tail,
      body = k.opening ++ tail ∧ ∀ c ∈ tail, IsClauseChar c
  | effectJoin, lead, body => lead.length ≤ 1 ∧ ∃ k ∈ ClauseKind.effects, ∃ tail,
      body = k.opening ++ tail ∧ ∀ c ∈ tail, IsClauseChar c
  | clauseWord, lead, body => lead = [] ∧ IsClauseWord body

theorem append_drop_one_letters (m : Special) : ['/'] ++ m.letters.drop 1 = m.letters := by
  cases m <;> rfl

/-- **A match reads its lead and its body off the start of the text.** -/
theorem reads_of_at? {p : Pattern} {b : Bool} {s lead body : List Char}
    (h : p.at? b s = some (lead, body)) : p.Reads lead body ∧ ∃ r, s = lead ++ body ++ r := by
  have hclause : ∀ {kinds : List ClauseKind}, isolated? (clauseOpening? kinds) b s =
      some (lead, body) → (lead.length ≤ 1 ∧ ∃ k ∈ kinds, body = ClauseKind.opening k) ∧
        ∃ r, s = lead ++ body ++ r := by
    intro kinds h
    obtain ⟨hlead, r, rfl, hbody⟩ := isolated?_eq_some h
    obtain ⟨k, hk, rfl, r, rfl⟩ := clauseOpening?_eq_some hbody
    exact ⟨⟨hlead, k, hk, rfl⟩, r, (List.append_assoc _ _ _).symm⟩
  have hjoin : ∀ {kinds : List ClauseKind}, isolated? (joinedClauses? kinds) b s =
      some (lead, body) → (lead.length ≤ 1 ∧ ∃ k ∈ kinds, ∃ tail,
        body = ClauseKind.opening k ++ tail ∧ ∀ c ∈ tail, IsClauseChar c) ∧
          ∃ r, s = lead ++ body ++ r := by
    intro kinds h
    obtain ⟨hlead, r, rfl, hbody⟩ := isolated?_eq_some h
    obtain ⟨⟨k, hk, tail, rfl, htail⟩, r, rfl⟩ := joinedClauses?_eq_some hbody
    exact ⟨⟨hlead, k, hk, tail, rfl, htail⟩, r, (List.append_assoc _ _ _).symm⟩
  cases p with
  | pageRef =>
    obtain ⟨hne, ⟨r, rfl, rfl, rfl⟩ | ⟨r, rfl, rfl, rfl⟩⟩ := at?_pageRef_eq_some h
    · refine ⟨⟨Or.inr rfl, hne, fun c hc => List.mem_takeWhile_imp hc⟩,
        r.dropWhile isWordChar, ?_⟩
      rw [List.append_assoc, wordRun_append_dropWhile]
      rfl
    · refine ⟨⟨Or.inl rfl, hne, fun c hc => List.mem_takeWhile_imp hc⟩,
        r.dropWhile isWordChar, ?_⟩
      rw [List.append_assoc, wordRun_append_dropWhile]
      rfl
  | flagRef =>
    obtain ⟨r, rfl, rfl, rfl, hne⟩ := at?_flagRef_eq_some h
    refine ⟨⟨rfl, hne, fun c hc => List.mem_takeWhile_imp hc⟩, r.dropWhile isWordChar, ?_⟩
    rw [List.append_assoc, wordRun_append_dropWhile]
    rfl
  | execRef =>
    obtain ⟨r, rfl, rfl, rfl, hne⟩ := at?_execRef_eq_some h
    refine ⟨⟨rfl, hne, fun c hc => List.mem_takeWhile_imp hc⟩, r.dropWhile isCommandChar, ?_⟩
    rw [List.append_assoc, List.takeWhile_append_dropWhile]
    rfl
  | metaRef =>
    dsimp only [at?] at h
    split at h
    next rest =>
      obtain ⟨t, ht, heq⟩ := Option.map_eq_some_iff.1 h
      obtain ⟨rfl, rfl⟩ := Prod.mk.inj heq
      obtain ⟨r, rfl⟩ := startsWith_iff.1 (List.find?_some (p := fun t : MetaTarget =>
        startsWith t.letters rest) ht)
      exact ⟨⟨rfl, t, rfl⟩, r, rfl⟩
    next => exact absurd h (by simp)
  | timeRef =>
    dsimp only [at?] at h
    split at h
    next rest hrest =>
      obtain ⟨t, ht, heq⟩ := Option.map_eq_some_iff.1 h
      obtain ⟨rfl, rfl⟩ := Prod.mk.inj heq
      obtain ⟨r, rfl⟩ := startsWith_iff.1 (List.find?_some (p := fun t : TimeLimit =>
        startsWith t.letters rest) ht)
      refine ⟨⟨rfl, t, rfl⟩, r, ?_⟩
      rw [dropPrefix?_eq_some_iff.1 hrest, List.append_assoc]
    next => exact absurd h (by simp)
  | specialRef =>
    dsimp only [at?] at h
    obtain ⟨m, hm, heq⟩ := Option.map_eq_some_iff.1 h
    obtain ⟨rfl, rfl⟩ := Prod.mk.inj heq
    have hfound := List.find?_some hm
    split at hfound
    next rest hrest =>
      refine ⟨⟨m, rfl, rfl⟩, rest, ?_⟩
      rw [append_drop_one_letters, dropPrefix?_eq_some_iff.1 hrest]
    next => exact absurd hfound (by simp)
  | conditionClause => exact hclause h
  | effectClause => exact hclause h
  | conditionJoin => exact hjoin h
  | effectJoin => exact hjoin h
  | clauseWord =>
    dsimp only [at?] at h
    split at h
    next =>
      obtain ⟨⟨w, r⟩, hw, heq⟩ := Option.map_eq_some_iff.1 h
      obtain ⟨rfl, rfl⟩ := Prod.mk.inj heq
      exact ⟨⟨rfl, isClauseWord_of_clauseWord? hw⟩, r, append_of_clauseWord? hw⟩
    next => exact absurd h (by simp)

/-- The patterns that are looked for on their own: their lead is what stands in front of the match,
if anything does. -/
def isolated : List Pattern := [conditionClause, effectClause, conditionJoin, effectJoin]

namespace Reads

variable {p : Pattern} {lead body : List Char}

/-- Bodies consist of the characters of clauses: there is neither a blank nor a quotation mark in
them. -/
theorem isClauseChar (h : p.Reads lead body) : ∀ c ∈ body, IsClauseChar c := by
  have hjoined : ∀ {k : ClauseKind} {tail : List Char}, (∀ c ∈ tail, IsClauseChar c) →
      ∀ c ∈ k.opening ++ tail, IsClauseChar c := by
    intro k tail htail c hc
    rcases List.mem_append.1 hc with hc | hc
    · exact isClauseChar_of_mem_opening k c hc
    · exact htail c hc
  cases p with
  | pageRef => exact fun c hc => Or.inl (h.2.2 c hc)
  | flagRef => exact fun c hc => Or.inl (h.2.2 c hc)
  | execRef => exact fun c hc => Or.inl (isWordChar_of_isCommandChar (h.2.2 c hc))
  | metaRef =>
    obtain ⟨-, t, rfl⟩ := h
    cases t <;> unfold IsClauseChar <;> decide
  | timeRef =>
    obtain ⟨-, t, rfl⟩ := h
    cases t <;> unfold IsClauseChar <;> decide
  | specialRef =>
    obtain ⟨m, -, rfl⟩ := h
    cases m <;> unfold IsClauseChar <;> decide
  | conditionClause =>
    obtain ⟨-, k, -, rfl⟩ := h
    exact isClauseChar_of_mem_opening k
  | effectClause =>
    obtain ⟨-, k, -, rfl⟩ := h
    exact isClauseChar_of_mem_opening k
  | conditionJoin =>
    obtain ⟨-, k, -, tail, rfl, htail⟩ := h
    exact hjoined htail
  | effectJoin =>
    obtain ⟨-, k, -, tail, rfl, htail⟩ := h
    exact hjoined htail
  | clauseWord => exact h.2.plain

theorem notMem_body (h : p.Reads lead body) {c : Char} (hw : isWordChar c = false)
    (hc : c ∉ ['-', ':', '$', ',']) : c ∉ body := by
  intro hm
  rcases h.isClauseChar c hm with hword | hmark
  · rw [hw] at hword
    exact absurd hword (by decide)
  · exact hc hmark

/-- Isolated patterns start with a small letter, behind one character at most. -/
theorem isLower_head (h : p.Reads lead body) (hp : p ∈ isolated) :
    lead.length ≤ 1 ∧ ∃ c m, body = c :: m ∧ c.isLower = true := by
  have hopening : ∀ (k : ClauseKind) (tail : List Char),
      ∃ c m, k.opening ++ tail = c :: m ∧ c.isLower = true := by
    intro k tail
    obtain ⟨c, m, hk, hc⟩ := IsClauseWord.head (w := k.opening) (Or.inr ⟨k, [], by simp, by simp⟩)
    exact ⟨c, m ++ tail, by rw [hk]; rfl, hc⟩
  simp only [isolated, List.mem_cons, List.not_mem_nil, or_false] at hp
  rcases hp with rfl | rfl | rfl | rfl
  · obtain ⟨hlead, k, -, rfl⟩ := h
    exact ⟨hlead, by simpa using hopening k []⟩
  · obtain ⟨hlead, k, -, rfl⟩ := h
    exact ⟨hlead, by simpa using hopening k []⟩
  · obtain ⟨hlead, k, -, tail, rfl, -⟩ := h
    exact ⟨hlead, hopening k tail⟩
  · obtain ⟨hlead, k, -, tail, rfl, -⟩ := h
    exact ⟨hlead, hopening k tail⟩

theorem body_ne_nil (h : p.Reads lead body) : body ≠ [] := by
  by_cases hp : p ∈ isolated
  · obtain ⟨-, c, m, rfl, -⟩ := h.isLower_head hp
    simp
  · cases p with
    | pageRef => exact h.2.1
    | flagRef => exact h.2.1
    | execRef => exact h.2.1
    | metaRef =>
      obtain ⟨-, t, rfl⟩ := h
      cases t <;> decide
    | timeRef =>
      obtain ⟨-, t, rfl⟩ := h
      cases t <;> decide
    | specialRef =>
      obtain ⟨m, -, rfl⟩ := h
      cases m <;> decide
    | clauseWord => exact h.2.ne_nil
    | _ => exact absurd (by decide) hp

/-- In front of all other patterns stands a sigil, or nothing. -/
theorem notMem_lead (h : p.Reads lead body) (hp : p ∉ isolated) : ' ' ∉ lead ∧ '"' ∉ lead := by
  cases p with
  | pageRef =>
    rcases h.1 with rfl | rfl
    · decide
    · decide
  | flagRef => rw [h.1]; decide
  | execRef => rw [h.1]; decide
  | metaRef => rw [h.1]; decide
  | timeRef => rw [h.1]; decide
  | specialRef =>
    obtain ⟨m, rfl, -⟩ := h
    decide
  | clauseWord => rw [h.1]; decide
  | _ => exact absurd (by decide) hp

end Reads

/-- **What a search finds stands in the text where it says**, and is such a word. -/
theorem reads_of_mem_scan {p : Pattern} {s : List Char} {hit : Hit} (h : hit ∈ p.scan s) :
    p.Reads hit.lead hit.body ∧
      ∃ a r, s = a ++ (hit.lead ++ hit.body) ++ r ∧ hit.start = byteLength a := by
  obtain ⟨a, r, b, rfl, hstart, hat⟩ := exists_append_of_mem_scan h
  obtain ⟨hreads, r, rfl⟩ := reads_of_at? hat
  exact ⟨hreads, a, r, (List.append_assoc _ _ _).symm, hstart⟩

end Pattern

end Gamebook
