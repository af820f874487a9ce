import Gamebook.Proofs.Pattern.Join
import Gamebook.Proofs.Script.Layout

/-!
Gamebook.Proofs.Pattern.Clause — the clauses that a search finds in front of a marker.

A search for clauses knows nothing of words. It tries every place that no word character and no
hyphen stands in front of, so also those behind a colon, a `$` or a comma, and what it matches begins
with the blank in front of the word. In a run of clauses this makes no difference: the name of a
clause holds nothing that separates, and behind the first separating character of a word there is no
colon up to the next blank (`IsClauseWord.colon_notMem`). So the search finds one opening for each
word that is a clause of the kinds that are looked for, in the order of the words
(`ClauseRun.map_captured_scanFrom`).
-/

namespace Gamebook

open Text

/-! ## Openings -/

/-- An opening ends at a colon, and no blank stands in front of that. -/
theorem clauseOpening?_eq_none {kinds : List ClauseKind} {s : List Char}
    (h : ':' ∉ s.takeWhile fun c => !isBlank c) : clauseOpening? kinds s = none := by
  cases hs : clauseOpening? kinds s with
  | none => rfl
  | some body =>
    obtain ⟨k, -, rfl, r, rfl⟩ := Pattern.clauseOpening?_eq_some hs
    have hword : IsClauseWord k.opening := Or.inr ⟨k, [], by simp, by simp⟩
    have hblank : ∀ c ∈ k.opening, (!isBlank c) = true := fun c hc => by
      rw [hword.isBlank c hc]
      rfl
    rw [List.takeWhile_append_of_pos hblank] at h
    exact absurd (List.mem_append_left _ (by simp [ClauseKind.opening])) h

theorem clauseOpening?_of_isBlank {kinds : List ClauseKind} {c : Char} (hc : isBlank c = true)
    (s : List Char) : clauseOpening? kinds (c :: s) = none :=
  clauseOpening?_eq_none (by simp [hc])

/-- A clause opens as a clause of its own kind, and no other. -/
theorem clauseOpening?_opening (kinds : List ClauseKind) (k : ClauseKind) (r : List Char) :
    clauseOpening? kinds (k.opening ++ r) = if k ∈ kinds then some k.opening else none := by
  split
  next hk => rw [clauseOpening?, ClauseKind.opening?_eq_some_iff.2 ⟨hk, rfl⟩, Option.map_some]
  next hk =>
    cases hs : clauseOpening? kinds (k.opening ++ r) with
    | none => rfl
    | some body =>
      obtain ⟨j, hj, rfl, r', hr⟩ := Pattern.clauseOpening?_eq_some hs
      obtain ⟨rfl, -⟩ := ClauseKind.eq_of_opening_append hr
      exact absurd hj hk

theorem clauseOpening?_negation (kinds : List ClauseKind) (r : List Char) :
    clauseOpening? kinds (negation ++ r) = none := by
  cases hs : clauseOpening? kinds (negation ++ r) with
  | none => rfl
  | some body =>
    obtain ⟨k, -, rfl, r', hr⟩ := Pattern.clauseOpening?_eq_some hs
    have hdrop := k.dropPrefix?_negation r'
    rw [← hr, dropPrefix?_append] at hdrop
    exact absurd hdrop (by simp)

/-- What opens a clause-shaped word does not depend on what stands behind the word. -/
theorem clauseOpening?_append (kinds : List ClauseKind) {w : List Char} (hw : IsClauseWord w)
    (t : List Char) : clauseOpening? kinds (w ++ t) = clauseOpening? kinds w := by
  rcases hw with rfl | ⟨k, flags, rfl, -⟩
  · rw [clauseOpening?_negation, ← List.append_nil negation, clauseOpening?_negation]
  · rw [List.append_assoc, clauseOpening?_opening, clauseOpening?_opening]

/-! ## The places of a word -/

/-- A clause-shaped word has one colon, and nothing in front of it separates. -/
theorem IsClauseWord.exists_colon {w : List Char} (h : IsClauseWord w) :
    ∃ name value, w = name ++ ':' :: value ∧ (∀ c ∈ name, ¬ Separates c) ∧ ':' ∉ value := by
  rcases h with rfl | ⟨k, flags, rfl, hflags⟩
  · refine ⟨"mode".toList, "not".toList, by decide, ?_, by decide⟩
    have key : ∀ c ∈ "mode".toList, isWordChar c = true := by decide
    exact fun c hc hsep => Bool.false_ne_true (hsep.1.symm.trans (key c hc))
  · refine ⟨k.letters, flags, by simp [ClauseKind.opening], fun c hc hsep => ?_, fun hm => ?_⟩
    · rcases k.plain_of_mem_letters c hc with hlower | rfl
      · exact Bool.false_ne_true (hsep.1.symm.trans (isWordChar_of_isLower hlower))
      · exact hsep.2 rfl
    · exact absurd (hflags ':' hm) (by decide)

/-- **Behind a separating character of a clause-shaped word there is no colon.** -/
theorem IsClauseWord.colon_notMem {a r : List Char} {c : Char} (h : IsClauseWord (a ++ c :: r))
    (hc : Separates c) : ':' ∉ r := by
  obtain ⟨name, value, heq, hname, hvalue⟩ := h.exists_colon
  rcases List.append_eq_append_iff.1 heq with ⟨a', rfl, hr⟩ | ⟨a', rfl, hr⟩
  · cases a' with
    | nil =>
      obtain ⟨rfl, rfl⟩ := List.cons.inj hr
      exact hvalue
    | cons d a' =>
      obtain ⟨rfl, -⟩ := List.cons.inj hr
      exact absurd hc (hname c (by simp))
  · cases a' with
    | nil =>
      obtain ⟨rfl, rfl⟩ := List.cons.inj hr
      exact hvalue
    | cons d a' =>
      obtain ⟨rfl, rfl⟩ := List.cons.inj hr
      exact fun hm => hvalue (by simp [hm])

/-! ## The search -/

/-- The opening of the word, if the word is a clause of one of these kinds. -/
def Text.Segment.opening? (kinds : List ClauseKind) (w : Segment) : Option Segment :=
  (clauseOpening? kinds w.text).map fun opening => ⟨w.start, opening⟩

namespace Pattern

/-- Where no match starts, the search goes on behind, also if it has to skip a part of it. -/
theorem scanFrom_append_of_none {p : Pattern} {t : List Char} : ∀ {s : List Char} {skip pos : Nat},
    skip ≤ s.length → (∀ a r, s = a ++ r → r ≠ [] → p.at? false (r ++ t) = none) →
      p.scanFrom false skip pos (s ++ t) = p.scanFrom false 0 (pos + byteLength s) t
  | [], 0, _, _, _ => rfl
  | c :: s, skip, pos, hskip, hnone => by
      have hrest : ∀ a r, s = a ++ r → r ≠ [] → p.at? false (r ++ t) = none :=
        fun a r hs => hnone (c :: a) r (by rw [hs]; rfl)
      rw [byteLength_cons, ← Nat.add_assoc]
      cases skip with
      | zero =>
        have hhere : p.at? false (c :: (s ++ t)) = none := hnone [] (c :: s) rfl (by simp)
        rw [List.cons_append, scanFrom, hhere]
        exact scanFrom_append_of_none (Nat.zero_le _) hrest
      | succ k => exact scanFrom_append_of_none (Nat.le_of_succ_le_succ hskip) hrest

section

variable {p : Pattern} {kinds : List ClauseKind}
  (hp : ∀ b s, p.at? b s = isolated? (clauseOpening? kinds) b s)
include hp

/-- Without a colon there is no clause. -/
theorem scanFrom_of_colon_notMem {s : List Char} (hs : ':' ∉ s) (b : Bool) (pos : Nat) :
    p.scanFrom b 0 pos s = [] := by
  refine scanFrom_eq_nil_iff.2 fun a r hr _ => ?_
  rw [hp]
  cases hfound : isolated? (clauseOpening? kinds) (b && a.isEmpty) r with
  | none => rfl
  | some found =>
    obtain ⟨lead, body⟩ := found
    obtain ⟨-, r', rfl, hbody⟩ := isolated?_eq_some hfound
    obtain ⟨k, -, rfl, r'', rfl⟩ := clauseOpening?_eq_some hbody
    exact absurd (by rw [hr]; simp [ClauseKind.opening]) hs

/-- Behind a blank a clause is looked for at once. -/
theorem at?_of_isBlank {c : Char} (hc : isBlank c = true) (b : Bool) (s : List Char) :
    p.at? b (c :: s) = (clauseOpening? kinds s).map fun body => ([c], body) := by
  obtain ⟨hword, hhyphen⟩ := separates_of_isBlank hc
  rw [hp]
  simp [isolated?, clauseOpening?_of_isBlank hc, hword, hhyphen]

/-- At the start of a word a clause is looked for only if nothing stands in front. -/
theorem at?_of_isClauseWord {w : List Char} (hw : IsClauseWord w) (t : List Char) :
    p.at? true (w ++ t) = (clauseOpening? kinds w).map fun body => ([], body) := by
  obtain ⟨c, r, rfl, hlower⟩ := hw.head
  have hopening := clauseOpening?_append kinds hw t
  rw [List.cons_append] at hopening ⊢
  rw [hp]
  cases hfound : clauseOpening? kinds (c :: r) with
  | some body => simp [isolated?, hopening, hfound]
  | none => simp [isolated?, hopening, hfound, isWordChar_of_isLower hlower]

variable {t : List Char} (ht : ':' ∉ t.takeWhile fun c => !isBlank c)
include ht

/-- **No other place of a word matches.** -/
theorem at?_of_suffix {a r : List Char} (hw : IsClauseWord (a ++ r)) (hr : r ≠ []) :
    p.at? false (r ++ t) = none := by
  obtain ⟨c, r, rfl⟩ := List.exists_cons_of_ne_nil hr
  rw [hp]
  simp only [isolated?, List.cons_append, Bool.false_eq_true, if_false]
  split
  next => rfl
  next hc =>
    rw [Bool.or_eq_true, beq_iff_eq, not_or, Bool.not_eq_true] at hc
    have hblank : ∀ d ∈ r, (!isBlank d) = true := fun d hd => by
      rw [hw.isBlank d (by simp [hd])]
      rfl
    have hcolon : ':' ∉ (r ++ t).takeWhile fun d => !isBlank d := by
      rw [List.takeWhile_append_of_pos hblank, List.mem_append, not_or]
      exact ⟨hw.colon_notMem hc, ht⟩
    rw [clauseOpening?_eq_none hcolon]
    rfl

/-- So the rest of a word is passed over, whether a match holds the front of it or not. -/
theorem scanFrom_suffix {a r : List Char} (hw : IsClauseWord (a ++ r)) {skip : Nat}
    (hskip : skip ≤ r.length) (pos : Nat) :
    p.scanFrom false skip pos (r ++ t) = p.scanFrom false 0 (pos + byteLength r) t := by
  refine scanFrom_append_of_none hskip fun a' r' hr hne => ?_
  rw [hr, ← List.append_assoc] at hw
  exact at?_of_suffix hp ht hw hne

/-- The search over a word at which nothing stands in front: it finds the opening. -/
theorem map_captured_scanFrom_word {w : List Char} (hw : IsClauseWord w) (pos : Nat) :
    (p.scanFrom true 0 pos (w ++ t)).map Hit.captured =
      (Segment.opening? kinds ⟨pos, w⟩).toList ++
        (p.scanFrom false 0 (pos + byteLength w) t).map Hit.captured := by
  have hat := at?_of_isClauseWord hp hw t
  obtain ⟨c, r, hcons, -⟩ := hw.head
  have hsuffix : IsClauseWord ([c] ++ r) := by rwa [hcons] at hw
  rw [Segment.opening?]
  rw [hcons, List.cons_append] at hat ⊢
  rw [scanFrom, hat, byteLength_cons, ← Nat.add_assoc]
  cases hopening : clauseOpening? kinds (c :: r) with
  | none =>
    simp only [Option.map_none, Option.toList_none, List.nil_append]
    rw [scanFrom_suffix hp ht hsuffix (Nat.zero_le _)]
  | some body =>
    obtain ⟨-, -, -, r', hr'⟩ := clauseOpening?_eq_some hopening
    have hskip : ([] : List Char).length + body.length - 1 ≤ r.length := by
      have := congrArg List.length hr'
      rw [List.length_cons, List.length_append] at this
      rw [List.length_nil]
      omega
    simp only [Option.map_some, Option.toList_some, List.map_cons, List.singleton_append]
    rw [scanFrom_suffix hp ht hsuffix hskip]
    rfl

/-- The search over a word with blanks in front: the last blank is the lead of the match. -/
theorem map_captured_scanFrom_blanks {w : List Char} (hw : IsClauseWord w) :
    ∀ {lead : List Char}, AllBlank lead → ∀ {b : Bool}, (b = true ∨ lead ≠ []) → ∀ pos : Nat,
      (p.scanFrom b 0 pos (lead ++ w ++ t)).map Hit.captured =
        (Segment.opening? kinds ⟨pos + byteLength lead, w⟩).toList ++
          (p.scanFrom false 0 (pos + byteLength lead + byteLength w) t).map Hit.captured
  | [], _, b, hb, pos => by
      obtain rfl := hb.resolve_right fun h => h rfl
      exact map_captured_scanFrom_word hp ht hw pos
  | [d], hlead, b, _, pos => by
      have hword : IsClauseWord ([] ++ w) := hw
      have hat := at?_of_isBlank hp (hlead d List.mem_cons_self) b (w ++ t)
      rw [clauseOpening?_append kinds hw] at hat
      rw [List.singleton_append, List.cons_append, scanFrom, hat, Segment.opening?, byteLength_cons,
        byteLength_nil, Nat.add_zero]
      cases hopening : clauseOpening? kinds w with
      | none =>
        simp only [Option.map_none, Option.toList_none, List.nil_append]
        rw [scanFrom_suffix hp ht hword (Nat.zero_le _)]
      | some body =>
        obtain ⟨-, -, -, r', hr'⟩ := clauseOpening?_eq_some hopening
        have hskip : [d].length + body.length - 1 ≤ w.length := by
          rw [hr', List.length_append, List.length_singleton]
          omega
        simp only [Option.map_some, Option.toList_some, List.map_cons, List.singleton_append]
        rw [scanFrom_suffix hp ht hword hskip, Hit.captured, byteLength_cons, byteLength_nil,
          Nat.add_zero]
  | d :: e :: lead, hlead, b, _, pos => by
      have he : isBlank e = true := hlead e (by simp)
      have hat := at?_of_isBlank hp (hlead d List.mem_cons_self) b (e :: lead ++ w ++ t)
      rw [List.append_assoc, List.cons_append, clauseOpening?_of_isBlank he] at hat
      have hblank : AllBlank (e :: lead) := fun c hc => hlead c (List.mem_cons_of_mem _ hc)
      have ih := map_captured_scanFrom_blanks hw hblank (b := false) (Or.inr (by simp))
        (pos + d.utf8Size)
      rw [List.append_assoc, List.cons_append] at ih
      rw [List.append_assoc, List.cons_append, List.cons_append, scanFrom, hat, byteLength_cons d,
        ← Nat.add_assoc]
      exact ih

end

end Pattern

/-- **A search for clauses finds one opening for each word of a run that is such a clause**, in the
order of the words. -/
theorem ClauseRun.map_captured_scanFrom {p : Pattern} {kinds : List ClauseKind}
    (hp : ∀ b s, p.at? b s = isolated? (clauseOpening? kinds) b s) {pos : Nat} {pre : List Char}
    {ws : List Segment} (h : ClauseRun pos pre ws) (k : MessageKind) {b : Bool}
    (hb : b = true ∨ StopsWord pre) :
    (p.scanFrom b 0 pos (pre ++ [k.marker])).map Hit.captured =
      ws.filterMap (Segment.opening? kinds) := by
  have hmarker : ':' ≠ k.marker := by cases k <;> decide
  induction h generalizing b with
  | @blanks pos lead hlead =>
    have hcolon : ':' ∉ lead ++ [k.marker] := by
      rw [List.mem_append, not_or, List.mem_singleton]
      exact ⟨fun hm => absurd (hlead _ hm) (by decide), hmarker⟩
    rw [Pattern.scanFrom_of_colon_notMem hp hcolon]
    rfl
  | @word pos lead w rest ws hlead hw hstop _ ih =>
    have hrest : ':' ∉ (rest ++ [k.marker]).takeWhile fun c => !isBlank c := by
      cases rest with
      | nil => simp [Layout.isBlank_marker, hmarker]
      | cons c rest => simp [hstop c rfl]
    have hfront : b = true ∨ lead ≠ [] := by
      refine hb.imp_right fun hpre hnil => ?_
      obtain ⟨c, r, rfl, -⟩ := hw.head
      subst hnil
      exact absurd (hpre c rfl) (by rw [hw.isBlank c List.mem_cons_self]; decide)
    rw [List.append_assoc, Pattern.map_captured_scanFrom_blanks hp hrest hw hlead hfront,
      ih (Or.inr hstop), List.filterMap_cons]
    cases Segment.opening? kinds ⟨pos + byteLength lead, w⟩ <;> rfl

end Gamebook
