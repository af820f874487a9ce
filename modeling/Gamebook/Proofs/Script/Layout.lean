import Gamebook.Proofs.Grammar.Clause
import Gamebook.Proofs.Text.Quotation

/-!
Gamebook.Proofs.Script.Layout — which lines are text lines.

In front of its marker a text line holds blanks and clause-shaped words only (`ClauseRun`), with
blanks between the words. `layout?_eq_some_iff` says that this is all: a line has a layout exactly
when it is such a run, a marker and anything at all. A run holds neither quotation marks nor
slashes, so no comment starts in front of the marker and no text is quoted there.
-/

namespace Gamebook

open Text

/-- The text, standing at byte `pos`, holds blanks and the clause-shaped words `ws` only, and a
blank follows each word that is not the last thing in it. -/
inductive ClauseRun : Nat → List Char → List Segment → Prop
  /-- Blanks only. -/
  | blanks {pos : Nat} {lead : List Char} (hlead : AllBlank lead) : ClauseRun pos lead []
  /-- One word, and the run behind it. -/
  | word {pos : Nat} {lead w rest : List Char} {ws : List Segment} (hlead : AllBlank lead)
      (hw : IsClauseWord w) (hstop : StopsWord rest)
      (hrest : ClauseRun (pos + byteLength lead + byteLength w) rest ws) :
      ClauseRun pos (lead ++ w ++ rest) (⟨pos + byteLength lead, w⟩ :: ws)

namespace ClauseRun

/-- The words of a run stand in it where their offsets say. -/
theorem exists_append {pos : Nat} {s : List Char} {ws : List Segment} (h : ClauseRun pos s ws)
    {w : Segment} (hw : w ∈ ws) :
    ∃ a b, s = a ++ w.text ++ b ∧ w.start = pos + byteLength a ∧ StopsWord b ∧
      IsClauseWord w.text := by
  induction h with
  | blanks _ => simp at hw
  | @word pos lead v rest ws _ hv hstop _ ih =>
    rcases List.mem_cons.1 hw with rfl | hmem
    · exact ⟨lead, rest, rfl, rfl, hstop, hv⟩
    · obtain ⟨a, b, rfl, hstart, hb, hcw⟩ := ih hmem
      refine ⟨lead ++ v ++ a, b, by simp, ?_, hb, hcw⟩
      rw [hstart, byteLength_append, byteLength_append]
      omega

/-- No quotation mark and no slash stands in a run of clauses. -/
theorem notMem {c : Char} (hc : c = '"' ∨ c = '/') {pos : Nat} {s : List Char}
    {ws : List Segment} (h : ClauseRun pos s ws) : c ∉ s := by
  have hblank : ∀ {lead : List Char}, AllBlank lead → c ∉ lead := by
    intro lead hl
    rcases hc with rfl | rfl
    · exact hl.quote_notMem
    · exact hl.slash_notMem
  have hword : ∀ {w : List Char}, IsClauseWord w → c ∉ w := by
    intro w hw
    rcases hc with rfl | rfl <;> exact hw.notMem (by decide) (by decide)
  induction h with
  | blanks hl => exact hblank hl
  | word hl hw _ _ ih =>
    rw [List.mem_append, List.mem_append, not_or, not_or]
    exact ⟨⟨hblank hl, hword hw⟩, ih⟩

/-- A run starts with a blank or with a small letter. -/
theorem head {pos : Nat} {s : List Char} {ws : List Segment} (h : ClauseRun pos s ws) {c : Char}
    (hc : c ∈ s.head?) : isBlank c = true ∨ c.isLower = true := by
  cases h with
  | blanks hl => exact Or.inl (hl.stopsWord c hc)
  | @word _ lead w rest ws hl hw _ _ =>
    cases lead with
    | cons d lead =>
      obtain rfl : d = c := by simpa using hc
      exact Or.inl (hl d (by simp))
    | nil =>
      obtain ⟨d, r, rfl, hlower⟩ := hw.head
      obtain rfl : d = c := by simpa using hc
      exact Or.inr hlower

/-- More blanks in front. -/
theorem append_blanks {pos : Nat} {t s : List Char} {ws : List Segment} (ht : AllBlank t)
    (h : ClauseRun (pos + byteLength t) s ws) : ClauseRun pos (t ++ s) ws := by
  have happend : ∀ {lead : List Char}, AllBlank lead → AllBlank (t ++ lead) := by
    intro lead hl c hc
    exact (List.mem_append.1 hc).elim (ht c) (hl c)
  generalize hp : pos + byteLength t = p at h
  cases h with
  | blanks hl => exact .blanks (happend hl)
  | @word _ lead w rest ws hl hw hstop hrest =>
    subst hp
    have hpos : pos + byteLength t + byteLength lead = pos + byteLength (t ++ lead) := by
      rw [byteLength_append]; omega
    rw [hpos] at hrest ⊢
    rw [← List.append_assoc, ← List.append_assoc]
    exact .word (happend hl) hw hstop hrest

/-- The same run, standing `n` bytes further right. -/
theorem shift (n : Nat) {pos : Nat} {s : List Char} {ws : List Segment} (h : ClauseRun pos s ws) :
    ClauseRun (n + pos) s (ws.map (Segment.shift n)) := by
  induction h with
  | blanks hl => exact .blanks hl
  | word hl hw hstop _ ih =>
    rw [← Nat.add_assoc, ← Nat.add_assoc] at ih
    rw [List.map_cons, Segment.shift, ← Nat.add_assoc]
    exact .word hl hw hstop ih

end ClauseRun

namespace Layout

theorem isBlank_marker (k : MessageKind) : isBlank k.marker = false := by cases k <;> decide

theorem isFlagListChar_marker (k : MessageKind) : isFlagListChar k.marker = false := by
  cases k <;> decide

theorem ofMarker?_marker (k : MessageKind) : MessageKind.ofMarker? k.marker = some k :=
  MessageKind.ofMarker?_eq_some_iff.2 rfl

/-- What may follow a clause-shaped word cannot continue its list of flags. -/
theorem isFlagListChar_of_wordEnds {s : List Char} (h : wordEnds s = true) :
    ∀ c ∈ s.head?, isFlagListChar c = false := by
  cases s with
  | nil => simp
  | cons d s =>
    intro c hc
    obtain rfl : d = c := by simpa using hc
    rw [wordEnds, Bool.or_eq_true] at h
    rcases h with h | h
    · exact isFlagListChar_of_isBlank h
    · obtain ⟨k, hk⟩ := Option.isSome_iff_exists.1 h
      rw [MessageKind.ofMarker?_eq_some_iff.1 hk]
      exact isFlagListChar_marker k

/-! ## One step of the walk -/

/-- The marker ends the walk. -/
theorem layoutFrom?_marker {lead : List Char} (hl : AllBlank lead) (pos : Nat) (k : MessageKind)
    (after : List Char) :
    layoutFrom? pos (lead ++ k.marker :: after) =
      some ⟨k, [], pos + byteLength lead, pos + byteLength lead + 1 + gapLength after⟩ := by
  have htrim : trimStart (lead ++ k.marker :: after) = k.marker :: after := by
    rw [trimStart_append_of_allBlank hl, trimStart_of_head (by simp [isBlank_marker])]
  have htake : (lead ++ k.marker :: after).takeWhile isBlank = lead := by
    rw [List.takeWhile_append_of_pos hl, List.takeWhile_cons_of_neg (by simp [isBlank_marker]),
      List.append_nil]
  rw [layoutFrom?, htake, htrim]
  simp only [ofMarker?_marker]

/-- A clause-shaped word is taken, and the walk goes on behind it if the word ends there. -/
theorem layoutFrom?_clauseWord {lead w rest : List Char} (hl : AllBlank lead) (hw : IsClauseWord w)
    (hrest : ∀ c ∈ rest.head?, isFlagListChar c = false) (pos : Nat) :
    layoutFrom? pos (lead ++ w ++ rest) =
      if wordEnds rest then (layoutFrom? (pos + byteLength lead + byteLength w) rest).map
        (addClause ⟨pos + byteLength lead, w⟩) else none := by
  obtain ⟨c, r, rfl, hlower⟩ := hw.head
  have hblank : Text.isBlank c = false := hw.isBlank c (by simp)
  have hmarker : MessageKind.ofMarker? c = none := by
    cases h : MessageKind.ofMarker? c with
    | none => rfl
    | some k =>
      rw [MessageKind.ofMarker?_eq_some_iff.1 h] at hlower
      cases k <;> exact absurd hlower (by decide)
  have htrim : trimStart (lead ++ (c :: r) ++ rest) = c :: (r ++ rest) := by
    rw [List.append_assoc, trimStart_append_of_allBlank hl, List.cons_append,
      trimStart_of_head (by simp [hblank])]
  have htake : (lead ++ (c :: r) ++ rest).takeWhile Text.isBlank = lead := by
    rw [List.append_assoc, List.takeWhile_append_of_pos hl, List.cons_append,
      List.takeWhile_cons_of_neg (by simp [hblank]), List.append_nil]
  have hclause : clauseWord? (c :: (r ++ rest)) = some (c :: r, rest) :=
    clauseWord?_append hw hrest
  rw [layoutFrom?]
  simp only [htake, htrim, hmarker]
  split
  next h => rw [htrim, hclause] at h; exact absurd h (by simp)
  next v behind h =>
    rw [htrim, hclause, Option.some.injEq, Prod.mk.injEq] at h
    obtain ⟨rfl, rfl⟩ := h
    rfl

theorem layoutFrom?_word {lead w rest : List Char} (hl : AllBlank lead) (hw : IsClauseWord w)
    (hrest : wordEnds rest = true) (pos : Nat) :
    layoutFrom? pos (lead ++ w ++ rest) =
      (layoutFrom? (pos + byteLength lead + byteLength w) rest).map
        (addClause ⟨pos + byteLength lead, w⟩) := by
  rw [layoutFrom?_clauseWord hl hw (isFlagListChar_of_wordEnds hrest), if_pos hrest]

/-- Where a line has a layout, its walk starts with a marker or with a clause-shaped word. -/
theorem layoutFrom?_cases {pos : Nat} {s : List Char} {l : Layout}
    (h : layoutFrom? pos s = some l) :
    (∃ (lead : List Char) (k : MessageKind) (after : List Char),
        AllBlank lead ∧ s = lead ++ k.marker :: after) ∨
      ∃ lead w rest : List Char, AllBlank lead ∧ IsClauseWord w ∧ wordEnds rest = true ∧
        s = lead ++ w ++ rest := by
  have hs : s = s.takeWhile Text.isBlank ++ trimStart s := List.takeWhile_append_dropWhile.symm
  rw [layoutFrom?] at h
  split at h
  next => exact absurd h (by simp)
  next c after hc =>
    split at h
    next k hk =>
      refine Or.inl ⟨_, k, after, allBlank_takeWhile s, ?_⟩
      rw [← MessageKind.ofMarker?_eq_some_iff.1 hk, ← hc]
      exact hs
    next =>
      split at h
      next => exact absurd h (by simp)
      next w behind hw =>
        split at h
        next hends =>
          refine Or.inr ⟨_, w, behind, allBlank_takeWhile s, isClauseWord_of_clauseWord? hw, hends, ?_⟩
          rw [List.append_assoc, ← append_of_clauseWord? hw]
          exact hs
        next => exact absurd h (by simp)

/-! ## The whole walk -/

theorem wordEnds_append_marker {rest : List Char} (h : StopsWord rest) (k : MessageKind)
    (post : List Char) : wordEnds (rest ++ k.marker :: post) = true := by
  cases rest with
  | nil =>
    show (Text.isBlank k.marker || (MessageKind.ofMarker? k.marker).isSome) = true
    rw [ofMarker?_marker, Option.isSome_some, Bool.or_true]
  | cons c rest =>
    have hc : Text.isBlank c = true := h c rfl
    show (Text.isBlank c || (MessageKind.ofMarker? c).isSome) = true
    rw [hc, Bool.true_or]

/-- A run of clauses, a marker and anything at all make a text line. -/
theorem layoutFrom?_of_clauseRun {pos : Nat} {pre : List Char} {ws : List Segment}
    (h : ClauseRun pos pre ws) (k : MessageKind) (post : List Char) :
    layoutFrom? pos (pre ++ k.marker :: post) =
      some ⟨k, ws, pos + byteLength pre, pos + byteLength pre + 1 + gapLength post⟩ := by
  induction h with
  | blanks hl => exact layoutFrom?_marker hl _ k post
  | @word pos lead w rest ws hl hw hstop _ ih =>
    have hpos : pos + byteLength lead + byteLength w + byteLength rest =
        pos + byteLength (lead ++ w ++ rest) := by
      rw [byteLength_append, byteLength_append]; omega
    rw [List.append_assoc (lead ++ w), layoutFrom?_word hl hw (wordEnds_append_marker hstop k post),
      ih, hpos]
    rfl

/-- A run of clauses that ends a word starts with a blank. -/
theorem stopsWord_of_wordEnds {pos : Nat} {pre : List Char} {ws : List Segment}
    (hrun : ClauseRun pos pre ws) {post : List Char} (h : wordEnds (pre ++ post) = true) :
    StopsWord pre := by
  intro c hc
  rcases hrun.head hc with hblank | hlower
  · exact hblank
  · obtain ⟨t, rfl⟩ := List.head?_eq_some_iff.1 hc
    rw [List.cons_append, wordEnds, Bool.or_eq_true] at h
    rcases h with hblank | hmark
    · exact hblank
    · obtain ⟨k, hk⟩ := Option.isSome_iff_exists.1 hmark
      rw [MessageKind.ofMarker?_eq_some_iff.1 hk] at hlower
      cases k <;> exact absurd hlower (by decide)

theorem exists_clauseRun {pos : Nat} {s : List Char} {l : Layout}
    (h : layoutFrom? pos s = some l) :
    ∃ pre post, s = pre ++ l.kind.marker :: post ∧ ClauseRun pos pre l.clauses := by
  induction hn : s.length using Nat.strongRecOn generalizing pos s l with
  | ind n ih =>
    rcases layoutFrom?_cases h with ⟨lead, k, after, hl, rfl⟩ | ⟨lead, w, rest, hl, hw, hends, rfl⟩
    · rw [layoutFrom?_marker hl, Option.some.injEq] at h
      subst h
      exact ⟨lead, after, rfl, .blanks hl⟩
    · rw [layoutFrom?_word hl hw hends, Option.map_eq_some_iff] at h
      obtain ⟨m, hm, rfl⟩ := h
      have hlt : rest.length < n := by
        have := List.length_pos_iff.2 hw.ne_nil
        rw [← hn]
        simp only [List.length_append]
        omega
      obtain ⟨pre, post, rfl, hrun⟩ := ih rest.length hlt hm rfl
      exact ⟨lead ++ w ++ pre, post, by simp [addClause],
        .word hl hw (stopsWord_of_wordEnds hrun hends) hrun⟩

/-- **Text lines.** A line has a layout exactly when it is a run of clauses, a marker and anything
at all; the layout says where the run ends. -/
theorem layoutFrom?_eq_some_iff {pos : Nat} {s : List Char} {l : Layout} :
    layoutFrom? pos s = some l ↔
      ∃ pre post, s = pre ++ l.kind.marker :: post ∧ ClauseRun pos pre l.clauses ∧
        l.marker = pos + byteLength pre ∧ l.textStart = l.marker + 1 + gapLength post := by
  constructor
  · intro h
    obtain ⟨pre, post, rfl, hrun⟩ := exists_clauseRun h
    rw [layoutFrom?_of_clauseRun hrun, Option.some.injEq] at h
    refine ⟨pre, post, rfl, hrun, ?_, ?_⟩
    · rw [← h]
    · rw [← h]
  · rintro ⟨pre, post, rfl, hrun, hmarker, htext⟩
    obtain ⟨kind, clauses, marker, textStart⟩ := l
    rw [layoutFrom?_of_clauseRun hrun]
    simp only at hmarker htext ⊢
    rw [htext, hmarker]

end Layout

theorem layout?_eq_some_iff {s : List Char} {l : Layout} :
    layout? s = some l ↔
      ∃ pre post, s = pre ++ l.kind.marker :: post ∧ ClauseRun 0 pre l.clauses ∧
        l.marker = byteLength pre ∧ l.textStart = l.marker + 1 + Layout.gapLength post := by
  rw [layout?, Layout.layoutFrom?_eq_some_iff]
  simp only [Nat.zero_add]

theorem isSome_layout?_iff {s : List Char} :
    (layout? s).isSome = true ↔
      ∃ (k : MessageKind) (pre post : List Char) (ws : List Segment),
        s = pre ++ k.marker :: post ∧ ClauseRun 0 pre ws := by
  rw [Option.isSome_iff_exists]
  constructor
  · rintro ⟨l, hl⟩
    obtain ⟨pre, post, hs, hrun, -⟩ := layout?_eq_some_iff.1 hl
    exact ⟨l.kind, pre, post, l.clauses, hs, hrun⟩
  · rintro ⟨k, pre, post, ws, rfl, hrun⟩
    exact ⟨_, Layout.layoutFrom?_of_clauseRun hrun k post⟩

theorem layout?_eq_none_of_append {s t : List Char} (h : layout? (s ++ t) = none) :
    layout? s = none := by
  cases hs : layout? s with
  | none => rfl
  | some l =>
    obtain ⟨k, pre, post, ws, rfl, hrun⟩ := isSome_layout?_iff.1 (by rw [hs]; rfl)
    have happend : (layout? (pre ++ k.marker :: post ++ t)).isSome = true :=
      isSome_layout?_iff.2 ⟨k, pre, post ++ t, ws, by simp, hrun⟩
    rw [h] at happend
    exact absurd happend (by decide)

/-- The same kind and the same clauses, where `n` more bytes stand in front. -/
structure Layout.IndentedBy (n : Nat) (l m : Layout) : Prop where
  /-- The kinds. -/
  kind : l.kind = m.kind
  /-- The clauses, with their places. -/
  clauses : l.clauses = m.clauses.map (Segment.shift n)
  /-- The places of the markers. -/
  marker : l.marker = n + m.marker

/-- A text line stays one with blanks in front and anything behind. -/
theorem exists_layout?_append {lead s : List Char} (hlead : AllBlank lead) {m : Layout}
    (h : layout? s = some m) (t : List Char) :
    ∃ l, layout? (lead ++ s ++ t) = some l ∧ l.IndentedBy (byteLength lead) m := by
  obtain ⟨pre, post, rfl, hrun, hmarker, -⟩ := layout?_eq_some_iff.1 h
  have hrun' : ClauseRun 0 (lead ++ pre) (m.clauses.map (Segment.shift (byteLength lead))) := by
    refine ClauseRun.append_blanks hlead ?_
    have hshift := hrun.shift (byteLength lead)
    rwa [Nat.add_comm] at hshift
  have hline : lead ++ (pre ++ m.kind.marker :: post) ++ t =
      lead ++ pre ++ m.kind.marker :: (post ++ t) := by
    simp only [List.append_assoc, List.cons_append]
  have hl := Layout.layoutFrom?_of_clauseRun hrun' m.kind (post ++ t)
  rw [← hline] at hl
  refine ⟨_, hl, rfl, rfl, ?_⟩
  show 0 + byteLength (lead ++ pre) = byteLength lead + m.marker
  rw [Nat.zero_add, byteLength_append, hmarker]

/-- A line that starts with a capital letter is no text line. -/
theorem layout?_eq_none_of_isUpper {lead : List Char} (hl : AllBlank lead) {c : Char}
    (hc : c.isUpper = true) (s : List Char) : layout? (lead ++ c :: s) = none := by
  have hblank : isBlank c = false := isBlank_of_isWordChar (isWordChar_of_isUpper hc)
  have hfirst : ∀ {lead' : List Char} {d : Char} {r : List Char}, AllBlank lead' →
      isBlank d = false → lead ++ c :: s = lead' ++ d :: r → d = c := by
    intro lead' d r hl' hd h
    have := congrArg trimStart h
    rw [trimStart_append_of_allBlank hl, trimStart_append_of_allBlank hl',
      trimStart_of_head (by simp [hblank]), trimStart_of_head (by simp [hd])] at this
    exact (List.cons.inj this).1.symm
  cases h : layout? (lead ++ c :: s) with
  | none => rfl
  | some l =>
    rcases Layout.layoutFrom?_cases h with ⟨lead', k, after, hl', hs⟩ |
      ⟨lead', w, rest, hl', hw, -, hs⟩
    · rw [← hfirst hl' (Layout.isBlank_marker k) hs] at hc
      cases k <;> exact absurd hc (by decide)
    · obtain ⟨d, r, rfl, hlower⟩ := hw.head
      rw [List.append_assoc] at hs
      rw [hfirst hl' (hw.isBlank d (by simp)) hs] at hlower
      rw [isUpper_of_isLower hlower] at hc
      exact absurd hc (by decide)

end Gamebook
