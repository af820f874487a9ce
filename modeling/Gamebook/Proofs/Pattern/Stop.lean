import Gamebook.Proofs.Pattern.Word

/-!
Gamebook.Proofs.Pattern.Stop — a match ends in front of a quotation mark and in front of a blank.

Names, clauses and fixed words are written with word characters and a few marks. Any other character
is a stop (`IsStop`): quotation marks are, and so are blanks. What starts in front of a stop is read
in front of it, whatever stands behind.

* `dropPrefix?_append_cons` and its like: prefixes and runs of characters.
* `opening?_append_stop`, `clauseWord?_append_stop`: clauses.
* `Pattern.at?_append_stop`: the matches of all patterns.
* `Pattern.scan_append_of_allBlank`: so a search finds nothing more in blanks behind the text.
-/

namespace Gamebook

open Text

/-! ## Prefixes and runs -/

namespace Text

/-- A prefix without the mark ends in front of the mark. -/
theorem dropPrefix?_append_cons {c : Char} (x : List Char) : ∀ {w : List Char} (u : List Char),
    c ∉ w → dropPrefix? w (u ++ c :: x) = (dropPrefix? w u).map (· ++ c :: x)
  | [], u, _ => by rw [dropPrefix?_nil, dropPrefix?_nil]; rfl
  | a :: w, [], h => by
      have hac : a ≠ c := fun he => h (he ▸ List.mem_cons_self)
      show (if a = c then dropPrefix? w x else none) = _
      rw [if_neg hac]
      rfl
  | a :: w, d :: u, h => by
      rw [List.mem_cons, not_or] at h
      rw [List.cons_append, dropPrefix?, dropPrefix?]
      split
      · exact dropPrefix?_append_cons x u h.2
      · rfl

theorem startsWith_append_cons {c : Char} {w : List Char} (h : c ∉ w) (u x : List Char) :
    startsWith w (u ++ c :: x) = startsWith w u := by
  rw [startsWith, startsWith, dropPrefix?_append_cons x u h, Option.isSome_map]

theorem takeWhile_append_cons {p : Char → Bool} {c : Char} (h : p c = false) (u x : List Char) :
    (u ++ c :: x).takeWhile p = u.takeWhile p := by
  induction u with
  | nil => simp [h]
  | cons d u ih => rw [List.cons_append, List.takeWhile_cons, List.takeWhile_cons, ih]

theorem dropWhile_append_cons {p : Char → Bool} {c : Char} (h : p c = false) (u x : List Char) :
    (u ++ c :: x).dropWhile p = u.dropWhile p ++ c :: x := by
  induction u with
  | nil => simp [h]
  | cons d u ih =>
    rw [List.cons_append, List.dropWhile_cons, List.dropWhile_cons, ih]
    split <;> rfl

/-- A prefix without the mark is one of what stands in front of the mark. -/
theorem prefix_of_prefix_append_cons {c : Char} {w u x : List Char} (hw : c ∉ w)
    (h : w <+: u ++ c :: x) : w <+: u := by
  obtain ⟨r, hr⟩ := h
  have hstart := startsWith_append_cons hw u x
  rw [← hr] at hstart
  obtain ⟨s, hs⟩ := startsWith_iff.1 (hstart.symm.trans (startsWith_iff.2 ⟨r, rfl⟩))
  exact ⟨s, hs.symm⟩

end Text

/-! ## Stops -/

/-- The character is neither a word character nor one of the marks that names, clauses and fixed
words are written with. -/
structure IsStop (c : Char) : Prop where
  /-- It is not part of a word. -/
  isWordChar : isWordChar c = false
  /-- It is none of the marks. -/
  notMem_marks : c ∉ ['@', '^', '$', '#', '/', ',', '-', ':']

theorem isStop_quote : IsStop '"' := ⟨by decide, by decide⟩

theorem isStop_of_isBlank {c : Char} (h : isBlank c = true) : IsStop c where
  isWordChar := isWordChar_of_isBlank h
  notMem_marks := forall_of_isBlank
    (P := fun c => c ∉ ['@', '^', '$', '#', '/', ',', '-', ':']) (by decide +kernel) h

namespace IsStop

variable {c : Char}

/-- A stop is not part of what is written with word characters and marks. -/
theorem notMem (h : IsStop c) {w : List Char}
    (hw : ∀ d ∈ w, Text.isWordChar d = true ∨ d ∈ ['@', '^', '$', '#', '/', ',', '-', ':']) :
    c ∉ w := by
  intro hm
  rcases hw c hm with hword | hmark
  · exact absurd (h.isWordChar.symm.trans hword) (by decide)
  · exact h.notMem_marks hmark

theorem isFlagListChar (h : IsStop c) : isFlagListChar c = false := by
  have hmarks := h.notMem_marks
  simp only [List.mem_cons, not_or] at hmarks
  simp [Gamebook.isFlagListChar, h.isWordChar, hmarks]

theorem isCommandChar (h : IsStop c) : isCommandChar c = false := by
  cases hc : Gamebook.isCommandChar c with
  | false => rfl
  | true => exact absurd (h.isWordChar.symm.trans (isWordChar_of_isCommandChar hc)) (by decide)

theorem notMem_opening (h : IsStop c) (k : ClauseKind) : c ∉ k.opening := by
  refine h.notMem fun d hd => ?_
  rcases isClauseChar_of_mem_opening k d hd with hd | hd
  · exact Or.inl hd
  · have hmarks : ∀ d ∈ ['-', ':', '$', ','], d ∈ ['@', '^', '$', '#', '/', ',', '-', ':'] := by
      decide
    exact Or.inr (hmarks d hd)

theorem notMem_negation (h : IsStop c) : c ∉ negation := h.notMem (by decide)

theorem notMem_special (h : IsStop c) (m : Special) : c ∉ m.letters :=
  h.notMem (by cases m <;> decide)

end IsStop

section

variable {c : Char} (h : IsStop c) (u x : List Char)

include h

/-! ## Names and clauses -/

theorem wordRun_append_stop : wordRun (u ++ c :: x) = wordRun u :=
  takeWhile_append_cons h.isWordChar u x

theorem endsWord_append_stop : endsWord (u ++ c :: x) = endsWord u := by
  cases u with
  | nil => simp [endsWord, h.isWordChar]
  | cons d u => rfl

theorem ClauseKind.opening?_append_stop (kinds : List ClauseKind) :
    opening? kinds (u ++ c :: x) = (opening? kinds u).map fun (k, r) => (k, r ++ c :: x) := by
  induction kinds with
  | nil => rfl
  | cons k kinds ih =>
    rw [opening?] at ih ⊢
    rw [opening?, List.findSome?_cons, List.findSome?_cons,
      dropPrefix?_append_cons x u (h.notMem_opening k), ih]
    cases dropPrefix? k.opening u <;> rfl

theorem clauseWord?_append_stop :
    clauseWord? (u ++ c :: x) = (clauseWord? u).map fun (w, r) => (w, r ++ c :: x) := by
  rw [clauseWord?, clauseWord?, dropPrefix?_append_cons x u h.notMem_negation,
    ClauseKind.opening?_append_stop h]
  cases dropPrefix? negation u with
  | some r => rfl
  | none =>
    cases ClauseKind.opening? ClauseKind.all u with
    | none => rfl
    | some found =>
      obtain ⟨k, r⟩ := found
      simp only [Option.map_none, Option.map_some, takeWhile_append_cons h.isFlagListChar,
        dropWhile_append_cons h.isFlagListChar]

theorem clauseOpening?_append_stop (kinds : List ClauseKind) :
    clauseOpening? kinds (u ++ c :: x) = clauseOpening? kinds u := by
  rw [clauseOpening?, clauseOpening?, ClauseKind.opening?_append_stop h, Option.map_map]
  rfl

theorem commaOpening?_append_stop : commaOpening? (u ++ c :: x) = commaOpening? u := by
  have hcomma : c ≠ ',' := fun he => h.notMem_marks (by simp [he])
  cases u with
  | nil => simp [commaOpening?, hcomma]
  | cons d u =>
    by_cases hd : d = ','
    · subst hd
      simp only [List.cons_append, commaOpening?, clauseOpening?_append_stop h]
    · simp [commaOpening?, hd]

theorem joinTail?_append_stop : joinTail? (u ++ c :: x) = joinTail? u := by
  induction u with
  | nil => simp [joinTail?, h.isFlagListChar]
  | cons d u ih =>
    rw [List.cons_append, joinTail?, joinTail?, ih, commaOpening?_append_stop h]

theorem joinedClauses?_append_stop (kinds : List ClauseKind) :
    joinedClauses? kinds (u ++ c :: x) = joinedClauses? kinds u := by
  rw [joinedClauses?, joinedClauses?, ClauseKind.opening?_append_stop h]
  cases ClauseKind.opening? kinds u with
  | none => rfl
  | some found => simp only [Option.map_some, joinTail?_append_stop h]

end

/-! ## Matches -/

namespace Pattern

theorem at?_flagRef (b : Bool) (s : List Char) :
    flagRef.at? b s = (dropPrefix? ['$'] s).bind fun r => nonemptyRun? ['$'] (wordRun r) := by
  dsimp only [at?]
  split
  next r => rfl
  next hne =>
    cases h : dropPrefix? ['$'] s with
    | none => rfl
    | some r => exact absurd (dropPrefix?_eq_some_iff.1 h) (hne r)

theorem at?_execRef (b : Bool) (s : List Char) :
    execRef.at? b s =
      (dropPrefix? ['#'] s).bind fun r => nonemptyRun? ['#'] (r.takeWhile isCommandChar) := by
  dsimp only [at?]
  split
  next r => rfl
  next hne =>
    cases h : dropPrefix? ['#'] s with
    | none => rfl
    | some r => exact absurd (dropPrefix?_eq_some_iff.1 h) (hne r)

theorem at?_metaRef (b : Bool) (s : List Char) :
    metaRef.at? b s = (dropPrefix? ['@', '^'] s).bind fun r =>
      (MetaTarget.all.find? fun t => startsWith t.letters r).map fun t =>
        (['@', '^'], t.letters) := by
  dsimp only [at?]
  split
  next r => rfl
  next hne =>
    cases h : dropPrefix? ['@', '^'] s with
    | none => rfl
    | some r => exact absurd (dropPrefix?_eq_some_iff.1 h) (hne r)

theorem at?_pageRef (b : Bool) (s : List Char) :
    pageRef.at? b s = match dropPrefix? ['@', '^'] s with
      | some r => nonemptyRun? ['@', '^'] (wordRun r)
      | none => (dropPrefix? ['@'] s).bind fun r => nonemptyRun? ['@'] (wordRun r) := by
  dsimp only [at?]
  split
  next r => rfl
  next r hcaret =>
    cases h : dropPrefix? ['@', '^'] ('@' :: r) with
    | none => rfl
    | some r' => exact absurd (List.cons.inj (dropPrefix?_eq_some_iff.1 h)).2 (hcaret r')
  next hcaret hne =>
    cases h : dropPrefix? ['@', '^'] s with
    | some r => exact absurd (dropPrefix?_eq_some_iff.1 h) (hcaret r)
    | none =>
      cases h' : dropPrefix? ['@'] s with
      | none => rfl
      | some r => exact absurd (dropPrefix?_eq_some_iff.1 h') (hne r)

variable {c : Char}

theorem find?_startsWith_append_cons {α : Type} {letters : α → List Char}
    (hletters : ∀ a, c ∉ letters a) (all : List α) (u x : List Char) :
    (all.find? fun a => startsWith (letters a) (u ++ c :: x)) =
      all.find? fun a => startsWith (letters a) u :=
  congrArg (all.find? ·) (funext fun a => startsWith_append_cons (hletters a) u x)

/-- Patterns that are not looked for on their own are read in front of a stop. -/
theorem at?_append_of_notMem_isolated {p : Pattern} (hp : p ∉ isolated) (h : IsStop c) (b : Bool)
    (u x : List Char) : p.at? b (u ++ c :: x) = p.at? b u := by
  cases p with
  | pageRef =>
    rw [at?_pageRef, at?_pageRef, dropPrefix?_append_cons x u (h.notMem (by decide)),
      dropPrefix?_append_cons x u (h.notMem (by decide))]
    cases dropPrefix? ['@', '^'] u with
    | some r => simp only [Option.map_some, wordRun_append_stop h]
    | none =>
      cases dropPrefix? ['@'] u with
      | none => rfl
      | some r =>
        simp only [Option.map_some, Option.map_none, Option.bind_some, wordRun_append_stop h]
  | flagRef =>
    rw [at?_flagRef, at?_flagRef, dropPrefix?_append_cons x u (h.notMem (by decide))]
    cases dropPrefix? ['$'] u with
    | none => rfl
    | some r => simp only [Option.map_some, Option.bind_some, wordRun_append_stop h]
  | execRef =>
    rw [at?_execRef, at?_execRef, dropPrefix?_append_cons x u (h.notMem (by decide))]
    cases dropPrefix? ['#'] u with
    | none => rfl
    | some r =>
      simp only [Option.map_some, Option.bind_some, takeWhile_append_cons h.isCommandChar]
  | metaRef =>
    have hletters : ∀ t : MetaTarget, c ∉ t.letters := fun t => h.notMem (by cases t <;> decide)
    rw [at?_metaRef, at?_metaRef, dropPrefix?_append_cons x u (h.notMem (by decide))]
    cases dropPrefix? ['@', '^'] u with
    | none => rfl
    | some r =>
      simp only [Option.map_some, Option.bind_some, find?_startsWith_append_cons hletters]
  | timeRef =>
    have hletters : ∀ t : TimeLimit, c ∉ t.letters := fun t => h.notMem (by cases t <;> decide)
    dsimp only [at?]
    rw [dropPrefix?_append_cons x u (h.notMem (by decide))]
    cases dropPrefix? TimeLimit.sigil u with
    | none => rfl
    | some r => simp only [Option.map_some, find?_startsWith_append_cons hletters]
  | specialRef =>
    dsimp only [at?]
    refine congrArg (Option.map _) (congrArg (Special.all.find? ·) (funext fun m => ?_))
    rw [dropPrefix?_append_cons x u (h.notMem_special m)]
    cases dropPrefix? m.letters u with
    | none => rfl
    | some r => simp only [Option.map_some, endsWord_append_stop h]
  | clauseWord =>
    dsimp only [at?]
    rw [clauseWord?_append_stop h, Option.map_map]
    rfl
  | conditionClause => exact absurd (by decide) hp
  | effectClause => exact absurd (by decide) hp
  | conditionJoin => exact absurd (by decide) hp
  | effectJoin => exact absurd (by decide) hp

/-- What is looked for on its own is read in front of a stop, if one character stands in front. -/
theorem isolated?_append_cons {find : List Char → Option (List Char)} {x : List Char}
    (hfind : ∀ u, find (u ++ c :: x) = find u) (b : Bool) (d : Char) (u : List Char) :
    isolated? find b (d :: (u ++ c :: x)) = isolated? find b (d :: u) := by
  have hcons := hfind (d :: u)
  rw [List.cons_append] at hcons
  simp only [isolated?, hcons, hfind u]

/-- **A match that starts in front of a stop does not depend on what stands behind it.** -/
theorem at?_append_stop (p : Pattern) (h : IsStop c) (b : Bool) (d : Char) (u x : List Char) :
    p.at? b (d :: (u ++ c :: x)) = p.at? b (d :: u) := by
  by_cases hp : p ∈ isolated
  · simp only [isolated, List.mem_cons, List.not_mem_nil, or_false] at hp
    rcases hp with rfl | rfl | rfl | rfl
    · exact isolated?_append_cons (fun u => clauseOpening?_append_stop h u x _) b d u
    · exact isolated?_append_cons (fun u => clauseOpening?_append_stop h u x _) b d u
    · exact isolated?_append_cons (fun u => joinedClauses?_append_stop h u x _) b d u
    · exact isolated?_append_cons (fun u => joinedClauses?_append_stop h u x _) b d u
  · exact at?_append_of_notMem_isolated hp h b (d :: u) x

/-! ## Blanks behind a text -/

/-- No match is made up of blanks. -/
theorem at?_of_allBlank (p : Pattern) (b : Bool) {s : List Char} (hs : AllBlank s) :
    p.at? b s = none := by
  cases h : p.at? b s with
  | none => rfl
  | some found =>
    obtain ⟨lead, body⟩ := found
    obtain ⟨hreads, r, rfl⟩ := reads_of_at? h
    obtain ⟨c, m, rfl⟩ := List.exists_cons_of_ne_nil hreads.body_ne_nil
    have hstop := isStop_of_isBlank (hs c (by simp))
    have hmarks := hstop.notMem_marks
    refine absurd (List.mem_cons_self : c ∈ c :: m) (hreads.notMem_body hstop.isWordChar ?_)
    simp only [List.mem_cons, not_or] at hmarks ⊢
    simp [hmarks]

theorem scanFrom_of_allBlank (p : Pattern) {s : List Char} (hs : AllBlank s) (b : Bool)
    (skip pos : Nat) : p.scanFrom b skip pos s = [] := by
  induction s generalizing b skip pos with
  | nil => cases skip <;> rfl
  | cons d s ih =>
    have hrest : AllBlank s := fun c hc => hs c (List.mem_cons_of_mem _ hc)
    cases skip with
    | zero => simp only [scanFrom, at?_of_allBlank p b hs, ih hrest]
    | succ k => exact ih hrest false k _

theorem scanFrom_append_of_allBlank (p : Pattern) {t : List Char} (ht : AllBlank t) (s : List Char)
    (b : Bool) (skip pos : Nat) : p.scanFrom b skip pos (s ++ t) = p.scanFrom b skip pos s := by
  induction s generalizing b skip pos with
  | nil =>
    rw [List.nil_append, scanFrom_of_allBlank p ht]
    cases skip <;> rfl
  | cons d s ih =>
    have hat : p.at? b (d :: (s ++ t)) = p.at? b (d :: s) := by
      cases t with
      | nil => rw [List.append_nil]
      | cons c t => exact at?_append_stop p (isStop_of_isBlank (ht c (by simp))) b d s t
    cases skip with
    | zero => simp only [List.cons_append, scanFrom, hat, ih]
    | succ k => exact ih false k _

/-- **Blanks behind a text** are not searched. -/
theorem scan_append_of_allBlank (p : Pattern) (s : List Char) {t : List Char} (ht : AllBlank t) :
    p.scan (s ++ t) = p.scan s := scanFrom_append_of_allBlank p ht s true 0 0

end Pattern

end Gamebook
