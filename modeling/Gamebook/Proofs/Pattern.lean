import Gamebook.Pattern
import Gamebook.Proofs.Grammar.Clause

/-!
Gamebook.Proofs.Pattern — what a search finds, and what it cannot miss.

* `exists_append_of_mem_scan`: a match stands where its offset says. This holds of every pattern.
* `mem_scan`: a search misses none of the places where its pattern matches. This holds of patterns
  with a sigil in front (`StartsWithSigil`), because the sigil stands nowhere else in a match: what
  is skipped behind a match holds no further one.

From these, what is found for each pattern that an error rests on: references to pages, flags and
commands, meta targets, and clauses that are joined by a comma.
-/

namespace Gamebook

open Text

/-- A run of word characters ends at the first other character. -/
theorem Text.wordRun_append {name r : List Char} (hname : ∀ c ∈ name, isWordChar c = true)
    (hr : ∀ c ∈ r.head?, isWordChar c = false) : wordRun (name ++ r) = name :=
  takeWhile_append_of_head hname hr

/-- A run of word characters does not reach into what does not start with one. -/
theorem Text.wordRun_append_of_head {t : List Char} (ht : ∀ c ∈ t.head?, isWordChar c = false) :
    ∀ s : List Char, wordRun (s ++ t) = wordRun s
  | [] => by
      cases t with
      | nil => rfl
      | cons c t =>
        have hc : isWordChar c = false := ht c rfl
        simp [wordRun, hc]
  | c :: s => by
      have ih := wordRun_append_of_head ht s
      unfold wordRun at ih ⊢
      rw [List.cons_append, List.takeWhile_cons, List.takeWhile_cons, ih]

theorem isWordChar_of_isCommandChar {c : Char} (h : isCommandChar c = true) :
    isWordChar c = true := by
  simp only [isCommandChar, Bool.or_eq_true, beq_iff_eq] at h
  rcases h with (h | h) | rfl
  · exact isWordChar_of_isUpper h
  · exact isWordChar_of_isAlphanum (by simp [Char.isAlphanum, h])
  · decide

theorem nonemptyRun?_eq_some {lead run : List Char} {m : List Char × List Char}
    (h : nonemptyRun? lead run = some m) : run ≠ [] ∧ m = (lead, run) := by
  unfold nonemptyRun? at h
  split at h
  next => exact absurd h (by simp)
  next hrun => exact ⟨hrun, (Option.some.inj h).symm⟩

namespace Pattern

/-! ## Every match stands in its text -/

theorem exists_append_of_mem_scanFrom {p : Pattern} {hit : Hit} : ∀ {s : List Char} {b : Bool}
    {skip pos : Nat}, hit ∈ p.scanFrom b skip pos s →
      ∃ (a r : List Char) (b' : Bool), s = a ++ r ∧ hit.start = pos + byteLength a ∧
        p.at? b' r = some (hit.lead, hit.body)
  | [], _, _, _, h => by simp [scanFrom] at h
  | c :: s, b, k + 1, pos, h => by
      obtain ⟨a, r, b', rfl, hstart, hat⟩ := exists_append_of_mem_scanFrom (s := s) h
      exact ⟨c :: a, r, b', rfl, by rw [hstart, byteLength_cons]; omega, hat⟩
  | c :: s, b, 0, pos, h => by
      have hrest : ∀ {skip : Nat}, hit ∈ p.scanFrom false skip (pos + c.utf8Size) s →
          ∃ (a r : List Char) (b' : Bool), c :: s = a ++ r ∧ hit.start = pos + byteLength a ∧
            p.at? b' r = some (hit.lead, hit.body) := by
        intro skip hm
        obtain ⟨a, r, b', rfl, hstart, hat⟩ := exists_append_of_mem_scanFrom hm
        exact ⟨c :: a, r, b', rfl, by rw [hstart, byteLength_cons]; omega, hat⟩
      rw [scanFrom] at h
      split at h
      next lead body hat =>
        rcases List.mem_cons.1 h with rfl | hm
        · exact ⟨[], c :: s, b, rfl, rfl, hat⟩
        · exact hrest hm
      next => exact hrest h

/-- **A match stands where its offset says.** -/
theorem exists_append_of_mem_scan {p : Pattern} {hit : Hit} {s : List Char} (h : hit ∈ p.scan s) :
    ∃ (a r : List Char) (b : Bool), s = a ++ r ∧ hit.start = byteLength a ∧
      p.at? b r = some (hit.lead, hit.body) := by
  obtain ⟨a, r, b, hs, hstart, hat⟩ := exists_append_of_mem_scanFrom h
  exact ⟨a, r, b, hs, by rw [hstart, Nat.zero_add], hat⟩

/-! ## Patterns with a sigil -/

/-- Every match starts with the sigil `c`, which stands nowhere else in it. -/
def StartsWithSigil (p : Pattern) (c : Char) : Prop :=
  ∀ (b : Bool) (s lead body : List Char), p.at? b s = some (lead, body) →
    ∃ m r, s = c :: (m ++ r) ∧ lead ++ body = c :: m ∧ c ∉ m

/-- A search with a sigil finds what starts at a sigil that no match before it holds. -/
theorem mem_scanFrom {p : Pattern} {c : Char} (hp : p.StartsWithSigil c)
    {r lead body : List Char} (hat : ∀ b, p.at? b (c :: r) = some (lead, body)) :
    ∀ (a : List Char) (b : Bool) (skip pos : Nat), c ∉ (a ++ c :: r).take skip →
      ⟨pos + byteLength a, lead, body⟩ ∈ p.scanFrom b skip pos (a ++ c :: r)
  | [], b, k + 1, pos, h => by simp at h
  | [], b, 0, pos, h => by
      rw [List.nil_append, scanFrom, hat b]
      exact List.mem_cons_self
  | d :: a, b, k + 1, pos, h => by
      rw [List.cons_append, List.take_succ_cons, List.mem_cons, not_or] at h
      have ih := mem_scanFrom hp hat a false k (pos + d.utf8Size) h.2
      rw [List.cons_append, scanFrom, byteLength_cons, ← Nat.add_assoc]
      exact ih
  | d :: a, b, 0, pos, _ => by
      have ih := fun skip => mem_scanFrom hp hat a false skip (pos + d.utf8Size)
      rw [List.cons_append, scanFrom, byteLength_cons, ← Nat.add_assoc]
      split
      next lead' body' hat' =>
        obtain ⟨m, r', hs, hm, hc⟩ := hp b _ lead' body' hat'
        have hskip : lead'.length + body'.length - 1 = m.length := by
          rw [← List.length_append, hm, List.length_cons, Nat.add_sub_cancel]
        have htail : a ++ c :: r = m ++ r' := (List.cons.inj hs).2
        refine List.mem_cons_of_mem _ (ih _ ?_)
        rw [hskip, htail, List.take_left]
        exact hc
      next => exact ih 0 (by simp)

/-- **A search with a sigil misses nothing.** -/
theorem mem_scan {p : Pattern} {c : Char} (hp : p.StartsWithSigil c) {r lead body : List Char}
    (hat : ∀ b, p.at? b (c :: r) = some (lead, body)) (a : List Char) :
    ⟨byteLength a, lead, body⟩ ∈ p.scan (a ++ c :: r) := by
  have h := mem_scanFrom hp hat a true 0 0 (by simp)
  rwa [Nat.zero_add] at h

/-! ## Flags -/

theorem wordRun_append_dropWhile (s : List Char) : wordRun s ++ s.dropWhile isWordChar = s :=
  List.takeWhile_append_dropWhile

theorem notMem_takeWhile {p : Char → Bool} {c : Char} (hc : p c = false) (s : List Char) :
    c ∉ s.takeWhile p := by
  intro hm
  rw [List.mem_takeWhile_imp hm] at hc
  exact absurd hc (by decide)

theorem notMem_wordRun {c : Char} (hc : isWordChar c = false) (s : List Char) : c ∉ wordRun s :=
  notMem_takeWhile hc s

theorem at?_flagRef_eq_some {b : Bool} {s lead body : List Char}
    (h : flagRef.at? b s = some (lead, body)) :
    ∃ r, s = '$' :: r ∧ lead = ['$'] ∧ body = wordRun r ∧ body ≠ [] := by
  dsimp only [at?] at h
  split at h
  next r =>
    obtain ⟨hne, heq⟩ := nonemptyRun?_eq_some h
    rw [Prod.mk.injEq] at heq
    exact ⟨r, rfl, heq.1, heq.2, by rw [heq.2]; exact hne⟩
  next => exact absurd h (by simp)

theorem startsWithSigil_flagRef : flagRef.StartsWithSigil '$' := by
  intro b s lead body h
  obtain ⟨r, rfl, rfl, rfl, -⟩ := at?_flagRef_eq_some h
  refine ⟨wordRun r, r.dropWhile isWordChar, ?_, rfl, notMem_wordRun (by decide) r⟩
  rw [wordRun_append_dropWhile]

/-- A flag is found wherever it stands. -/
theorem mem_scan_flagRef (a : List Char) {name r : List Char} (hne : name ≠ [])
    (hname : ∀ c ∈ name, isWordChar c = true) (hr : ∀ c ∈ r.head?, isWordChar c = false) :
    ⟨byteLength a, ['$'], name⟩ ∈ flagRef.scan (a ++ '$' :: (name ++ r)) := by
  refine mem_scan startsWithSigil_flagRef (fun b => ?_) a
  rw [at?]
  show nonemptyRun? ['$'] (wordRun (name ++ r)) = _
  rw [wordRun_append hname hr, nonemptyRun?, if_neg hne]

theorem exists_append_of_mem_scan_flagRef {s : List Char} {hit : Hit}
    (h : hit ∈ flagRef.scan s) :
    ∃ a r, s = a ++ '$' :: r ∧ hit.body = wordRun r ∧ hit.body ≠ [] := by
  obtain ⟨a, r, b, rfl, -, hat⟩ := exists_append_of_mem_scan h
  obtain ⟨r, rfl, -, hbody, hne⟩ := at?_flagRef_eq_some hat
  exact ⟨a, r, rfl, hbody, hne⟩

/-! ## Commands -/

theorem at?_execRef_eq_some {b : Bool} {s lead body : List Char}
    (h : execRef.at? b s = some (lead, body)) :
    ∃ r, s = '#' :: r ∧ lead = ['#'] ∧ body = r.takeWhile isCommandChar ∧ body ≠ [] := by
  dsimp only [at?] at h
  split at h
  next r =>
    obtain ⟨hne, heq⟩ := nonemptyRun?_eq_some h
    rw [Prod.mk.injEq] at heq
    exact ⟨r, rfl, heq.1, heq.2, by rw [heq.2]; exact hne⟩
  next => exact absurd h (by simp)

theorem startsWithSigil_execRef : execRef.StartsWithSigil '#' := by
  intro b s lead body h
  obtain ⟨r, rfl, rfl, rfl, -⟩ := at?_execRef_eq_some h
  refine ⟨r.takeWhile isCommandChar, r.dropWhile isCommandChar, ?_, rfl,
    notMem_takeWhile (by decide) r⟩
  rw [List.takeWhile_append_dropWhile]

/-- A command is found wherever it stands. -/
theorem mem_scan_execRef (a : List Char) {name r : List Char} (hne : name ≠ [])
    (hname : ∀ c ∈ name, isCommandChar c = true) (hr : ∀ c ∈ r.head?, isCommandChar c = false) :
    ⟨byteLength a, ['#'], name⟩ ∈ execRef.scan (a ++ '#' :: (name ++ r)) := by
  refine mem_scan startsWithSigil_execRef (fun b => ?_) a
  rw [at?]
  show nonemptyRun? ['#'] ((name ++ r).takeWhile isCommandChar) = _
  rw [takeWhile_append_of_head hname hr, nonemptyRun?, if_neg hne]

/-! ## Pages -/

theorem at?_pageRef_eq_some {b : Bool} {s lead body : List Char}
    (h : pageRef.at? b s = some (lead, body)) :
    body ≠ [] ∧ ((∃ r, s = '@' :: '^' :: r ∧ lead = ['@', '^'] ∧ body = wordRun r) ∨
      ∃ r, s = '@' :: r ∧ lead = ['@'] ∧ body = wordRun r) := by
  dsimp only [at?] at h
  split at h
  next r =>
    obtain ⟨hne, heq⟩ := nonemptyRun?_eq_some h
    obtain ⟨rfl, rfl⟩ := Prod.mk.inj heq
    exact ⟨hne, Or.inl ⟨r, rfl, rfl, rfl⟩⟩
  next r _ =>
    obtain ⟨hne, heq⟩ := nonemptyRun?_eq_some h
    obtain ⟨rfl, rfl⟩ := Prod.mk.inj heq
    exact ⟨hne, Or.inr ⟨r, rfl, rfl, rfl⟩⟩
  next => exact absurd h (by simp)

theorem startsWithSigil_pageRef : pageRef.StartsWithSigil '@' := by
  intro b s lead body h
  obtain ⟨-, ⟨r, rfl, rfl, rfl⟩ | ⟨r, rfl, rfl, rfl⟩⟩ := at?_pageRef_eq_some h
  · refine ⟨'^' :: wordRun r, r.dropWhile isWordChar, ?_, rfl, ?_⟩
    · rw [List.cons_append, wordRun_append_dropWhile]
    · rw [List.mem_cons, not_or]
      exact ⟨by decide, notMem_wordRun (by decide) r⟩
  · refine ⟨wordRun r, r.dropWhile isWordChar, ?_, rfl, notMem_wordRun (by decide) r⟩
    rw [wordRun_append_dropWhile]

/-- A page is found wherever it stands. -/
theorem mem_scan_pageRef (a : List Char) {name r : List Char} (hne : name ≠ [])
    (hname : ∀ c ∈ name, isWordChar c = true) (hr : ∀ c ∈ r.head?, isWordChar c = false) :
    ⟨byteLength a, ['@'], name⟩ ∈ pageRef.scan (a ++ '@' :: (name ++ r)) := by
  refine mem_scan startsWithSigil_pageRef (fun b => ?_) a
  rw [at?]
  · show nonemptyRun? ['@'] (wordRun (name ++ r)) = _
    rw [wordRun_append hname hr, nonemptyRun?, if_neg hne]
  · -- A caret is no word character, so it does not follow the sigil.
    intro rest h
    cases name with
    | nil => exact hne rfl
    | cons c name =>
      have hc : c = '^' := (List.cons.inj h).1
      have := hname c List.mem_cons_self
      rw [hc] at this
      exact absurd this (by decide)

theorem exists_append_of_mem_scan_pageRef {s : List Char} {hit : Hit}
    (h : hit ∈ pageRef.scan s) (hlead : hit.lead = ['@']) :
    ∃ a r, s = a ++ '@' :: r ∧ hit.body = wordRun r ∧ hit.body ≠ [] := by
  obtain ⟨a, r, b, rfl, -, hat⟩ := exists_append_of_mem_scan h
  obtain ⟨hne, ⟨r, rfl, hcaret, -⟩ | ⟨r, rfl, -, hbody⟩⟩ := at?_pageRef_eq_some hat
  · rw [hlead] at hcaret
    exact absurd hcaret (by decide)
  · exact ⟨a, r, rfl, hbody, hne⟩

theorem exists_append_of_mem_scan_metaRef {s : List Char} {hit : Hit}
    (h : hit ∈ metaRef.scan s) : ∃ a r, s = a ++ '@' :: '^' :: r := by
  obtain ⟨a, r, b, rfl, -, hat⟩ := exists_append_of_mem_scan h
  dsimp only [at?] at hat
  split at hat
  next r => exact ⟨a, r, rfl⟩
  next => exact absurd hat (by simp)

/-! ## Joined clauses -/

/-- The text holds a comma with a small letter behind it. -/
def HasCommaLetter (s : List Char) : Prop :=
  ∃ a c r, s = a ++ ',' :: c :: r ∧ c.isLower = true

theorem HasCommaLetter.append_left {s : List Char} (h : HasCommaLetter s) (t : List Char) :
    HasCommaLetter (t ++ s) := by
  obtain ⟨a, c, r, rfl, hc⟩ := h
  exact ⟨t ++ a, c, r, by rw [List.append_assoc], hc⟩

theorem hasCommaLetter_of_commaOpening? {s m : List Char} (h : commaOpening? s = some m) :
    HasCommaLetter s := by
  unfold commaOpening? at h
  split at h
  next s =>
    obtain ⟨o, ho, -⟩ := Option.map_eq_some_iff.1 h
    obtain ⟨⟨k, rest⟩, hk, -⟩ := Option.map_eq_some_iff.1 ho
    obtain ⟨d, r, hletters, hd⟩ :=
      IsClauseWord.head (w := k.opening) (Or.inr ⟨k, [], by simp, by simp⟩)
    refine ⟨[], d, r ++ rest, ?_, hd⟩
    rw [(ClauseKind.opening?_eq_some hk).2, hletters]
    rfl
  next => exact absurd h (by simp)

theorem hasCommaLetter_of_joinTail? : ∀ {s m : List Char}, joinTail? s = some m → HasCommaLetter s
  | [], _, h => by simp [joinTail?] at h
  | c :: s, m, h => by
      unfold joinTail? at h
      split at h
      next =>
        split at h
        next tail htail => exact (hasCommaLetter_of_joinTail? htail).append_left [c]
        next =>
          obtain ⟨o, ho, -⟩ := Option.map_eq_some_iff.1 h
          exact (hasCommaLetter_of_commaOpening? ho).append_left [c]
      next => exact absurd h (by simp)

theorem hasCommaLetter_of_joinedClauses? {kinds : List ClauseKind} {s m : List Char}
    (h : joinedClauses? kinds s = some m) : HasCommaLetter s := by
  unfold joinedClauses? at h
  split at h
  next k rest hk =>
    obtain ⟨tail, htail, -⟩ := Option.map_eq_some_iff.1 h
    rw [(ClauseKind.opening?_eq_some hk).2]
    exact (hasCommaLetter_of_joinTail? htail).append_left _
  next => exact absurd h (by simp)

/-- What is found on its own is found at the start, or behind one character. -/
theorem isolated?_eq_some {find : List Char → Option (List Char)} {b : Bool}
    {s lead body : List Char} (h : isolated? find b s = some (lead, body)) :
    lead.length ≤ 1 ∧ ∃ r, s = lead ++ r ∧ find r = some body := by
  unfold isolated? at h
  split at h
  next body' hbody =>
    obtain ⟨rfl, rfl⟩ := Prod.mk.inj (Option.some.inj h)
    split at hbody
    next => exact ⟨Nat.zero_le 1, s, rfl, hbody⟩
    next => exact absurd hbody (by simp)
  next =>
    split at h
    next => exact absurd h (by simp)
    next c rest _ =>
      split at h
      next => exact absurd h (by simp)
      next =>
        obtain ⟨body', hbody, heq⟩ := Option.map_eq_some_iff.1 h
        obtain ⟨rfl, rfl⟩ := Prod.mk.inj heq
        exact ⟨Nat.le_refl 1, rest, rfl, hbody⟩

/-- **Where clauses are joined, a letter follows a comma.** -/
theorem hasCommaLetter_of_mem_scan {s : List Char} {hit : Hit}
    (h : hit ∈ conditionJoin.scan s ∨ hit ∈ effectJoin.scan s) : HasCommaLetter s := by
  have hjoin : ∀ {kinds : List ClauseKind} {b : Bool} {r lead body : List Char},
      isolated? (joinedClauses? kinds) b r = some (lead, body) → HasCommaLetter r := by
    intro kinds b r lead body hm
    obtain ⟨-, r, rfl, hbody⟩ := isolated?_eq_some hm
    exact (hasCommaLetter_of_joinedClauses? hbody).append_left lead
  rcases h with h | h
  · obtain ⟨a, r, b, rfl, -, hat⟩ := exists_append_of_mem_scan h
    exact (hjoin hat).append_left a
  · obtain ⟨a, r, b, rfl, -, hat⟩ := exists_append_of_mem_scan h
    exact (hjoin hat).append_left a

end Pattern

end Gamebook
