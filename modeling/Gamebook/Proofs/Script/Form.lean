import Gamebook.Proofs.Place.Selection
import Gamebook.Proofs.Script.Layout

/-!
Gamebook.Proofs.Script.Form — how text lines are written, piece by piece.

A text line is written as blanks, clause-shaped words with blanks behind each, perhaps one more
such word to which the marker is glued, the marker, and anything at all (`LineForm`). Of one line
there is one form at most (`LineForm.eq_of_text_eq`): in front of the marker blanks and words take
turns, and no word holds a blank. That the marker itself has one place only cannot be seen from its
character, since a hyphen stands in the names of clauses too; it is where the layout says.

`layout?_grammar` says that a line has a layout exactly when it has a form, and that the layout is
read off the form.
-/

namespace Gamebook

open Text

/-! ## In front of the marker -/

/-- What stands in front of the marker of a text line. -/
structure LineFront where
  /-- The blanks at the start. -/
  indent : List Char
  /-- The clause-shaped words that blanks follow, each with these blanks. -/
  spaced : List (List Char × List Char)
  /-- The clause-shaped word that the marker is glued to, if there is one. -/
  glued : Option (List Char)
deriving DecidableEq, Repr

namespace LineFront

/-- The words, from the first one on, with the blanks between them. -/
def body (spaced : List (List Char × List Char)) (glued : Option (List Char)) : List Char :=
  spaced.flatMap (fun p => p.1 ++ p.2) ++ glued.getD []

/-- The characters in front of the marker. -/
def text (f : LineFront) : List Char := f.indent ++ body f.spaced f.glued

/-- The words with their places, where the first one stands at byte `pos`. -/
def segmentsFrom (pos : Nat) (glued : Option (List Char)) :
    List (List Char × List Char) → List Segment
  | [] => (glued.map (Segment.mk pos)).toList
  | (w, gap) :: ps => ⟨pos, w⟩ :: segmentsFrom (pos + byteLength w + byteLength gap) glued ps

/-- The words in their order, each with the number of bytes in front of it. -/
def segments (f : LineFront) : List Segment := segmentsFrom (byteLength f.indent) f.glued f.spaced

/-- The words are clause-shaped, blanks are blank, and there is one at least behind each word but
the one that the marker is glued to. -/
structure WellFormed (f : LineFront) : Prop where
  /-- The line starts with blanks. -/
  indent : AllBlank f.indent
  /-- Words with blanks behind them. -/
  spaced : ∀ p ∈ f.spaced, IsClauseWord p.1 ∧ AllBlank p.2 ∧ p.2 ≠ []
  /-- The word at the marker. -/
  glued : ∀ w ∈ f.glued, IsClauseWord w

variable {spaced spaced' : List (List Char × List Char)} {glued glued' : Option (List Char)}

theorem body_nil (glued : Option (List Char)) : body [] glued = glued.getD [] := rfl

theorem body_cons (w gap : List Char) (spaced : List (List Char × List Char))
    (glued : Option (List Char)) :
    body ((w, gap) :: spaced) glued = w ++ (gap ++ body spaced glued) := by
  simp only [body, List.flatMap_cons, List.append_assoc]

/-- With blanks in front of it, the rest of a form is a form. -/
theorem WellFormed.tail {indent w gap : List Char}
    (h : WellFormed ⟨indent, (w, gap) :: spaced, glued⟩) : WellFormed ⟨gap, spaced, glued⟩ :=
  ⟨(h.spaced _ List.mem_cons_self).2.1, fun p hp => h.spaced p (List.mem_cons_of_mem _ hp), h.glued⟩

/-- The words begin with a word. -/
theorem WellFormed.isBlank_head_body {indent : List Char} (h : WellFormed ⟨indent, spaced, glued⟩) :
    ∀ c ∈ (body spaced glued).head?, isBlank c = false := by
  have hword : ∀ {w r : List Char}, IsClauseWord w → ∀ c ∈ (w ++ r).head?, isBlank c = false := by
    intro w r hw c hc
    obtain ⟨d, t, rfl, -⟩ := hw.head
    obtain rfl : d = c := by simpa using hc
    exact hw.isBlank d List.mem_cons_self
  cases spaced with
  | nil =>
    cases glued with
    | none => simp [body_nil]
    | some w =>
      have := hword (r := []) (h.glued w rfl)
      rwa [List.append_nil] at this
  | cons p spaced =>
    rw [body_cons]
    exact hword (h.spaced p List.mem_cons_self).1

/-- Without blanks in front, the words can only follow a word if there are none. -/
theorem WellFormed.body_eq_nil {indent : List Char} (h : WellFormed ⟨indent, spaced, glued⟩)
    (hstop : StopsWord (body spaced glued)) : spaced = [] ∧ glued = none := by
  have hnil : body spaced glued = [] := by
    cases hbody : body spaced glued with
    | nil => rfl
    | cons c t =>
      have hblank := h.isBlank_head_body c (by rw [hbody]; rfl)
      rw [hstop c (by rw [hbody]; rfl)] at hblank
      exact absurd hblank (by decide)
  cases spaced with
  | nil =>
    cases glued with
    | none => exact ⟨rfl, rfl⟩
    | some w => exact absurd hnil (h.glued w rfl).ne_nil
  | cons p spaced =>
    rw [body_cons, List.append_eq_nil_iff] at hnil
    exact absurd hnil.1 (h.spaced p List.mem_cons_self).1.ne_nil

/-! ### Runs of clauses -/

/-- A form is a run of clauses. -/
theorem WellFormed.clauseRun : ∀ {spaced : List (List Char × List Char)} {indent : List Char},
    WellFormed ⟨indent, spaced, glued⟩ → ∀ pos : Nat,
      ClauseRun pos (indent ++ body spaced glued)
        (segmentsFrom (pos + byteLength indent) glued spaced)
  | [], indent, h, pos => by
      cases glued with
      | none =>
        rw [body_nil, Option.getD_none, List.append_nil]
        exact .blanks h.indent
      | some w =>
        have hrun : ClauseRun pos (indent ++ w ++ []) [⟨pos + byteLength indent, w⟩] :=
          .word h.indent (h.glued w rfl) (by simp [StopsWord]) (.blanks (by simp [AllBlank]))
        rwa [List.append_nil] at hrun
  | (w, gap) :: spaced, indent, h, pos => by
      obtain ⟨hw, hgap, hne⟩ := h.spaced _ List.mem_cons_self
      have hstop : StopsWord (gap ++ body spaced glued) := by
        obtain ⟨c, t, rfl⟩ := List.exists_cons_of_ne_nil hne
        intro d hd
        obtain rfl : c = d := by simpa using hd
        exact hgap c List.mem_cons_self
      rw [body_cons, ← List.append_assoc]
      exact .word h.indent hw hstop (h.tail.clauseRun _)

/-- A run of clauses has a form. -/
theorem exists_of_clauseRun {pos : Nat} {s : List Char} {ws : List Segment}
    (h : ClauseRun pos s ws) : ∃ f : LineFront, f.WellFormed ∧ f.text = s ∧
      segmentsFrom (pos + byteLength f.indent) f.glued f.spaced = ws := by
  induction h with
  | @blanks pos lead hl => exact ⟨⟨lead, [], none⟩, ⟨hl, by simp, by simp⟩, by simp [text, body], rfl⟩
  | @word pos lead w rest ws hl hw hstop _ ih =>
    obtain ⟨⟨indent, spaced, glued⟩, hf, rfl, rfl⟩ := ih
    by_cases hindent : indent = []
    · -- nothing can follow the word, so it is the one that the marker is glued to
      subst hindent
      obtain ⟨rfl, rfl⟩ := hf.body_eq_nil hstop
      refine ⟨⟨lead, [], some w⟩, ⟨hl, by simp, ?_⟩, by simp [text, body], rfl⟩
      rintro v ⟨rfl⟩
      exact hw
    · refine ⟨⟨lead, (w, indent) :: spaced, glued⟩, ⟨hl, ?_, hf.glued⟩, ?_, rfl⟩
      · intro p hp
        rcases List.mem_cons.1 hp with rfl | hp
        · exact ⟨hw, hf.indent, hindent⟩
        · exact hf.spaced p hp
      · simp only [text, body_cons, List.append_assoc]

/-! ### One form at most -/

/-- A blank stands behind each word but the last one. -/
theorem body_nil_ne_body_cons {indent indent' w gap : List Char}
    (h : WellFormed ⟨indent, [], glued⟩) (h' : WellFormed ⟨indent', (w, gap) :: spaced', glued'⟩) :
    body [] glued ≠ body ((w, gap) :: spaced') glued' := by
  intro heq
  obtain ⟨-, hgap, hne⟩ := h'.spaced _ List.mem_cons_self
  obtain ⟨c, t, rfl⟩ := List.exists_cons_of_ne_nil hne
  have hc : c ∈ glued.getD [] := by
    rw [← body_nil, heq, body_cons]
    simp
  cases glued with
  | none => exact absurd hc (by simp)
  | some v =>
    have hblank := (h.glued v rfl).isBlank c hc
    rw [hgap c List.mem_cons_self] at hblank
    exact absurd hblank (by decide)

/-- Words without blanks and blanks take turns in one way only. -/
theorem body_inj : ∀ {spaced spaced' : List (List Char × List Char)} {indent indent' : List Char},
    WellFormed ⟨indent, spaced, glued⟩ → WellFormed ⟨indent', spaced', glued'⟩ →
      body spaced glued = body spaced' glued' → spaced = spaced' ∧ glued = glued'
  | [], [], _, _, h, h', heq => by
      cases glued with
      | none => exact ⟨rfl, (h'.body_eq_nil (by rw [← heq]; simp [body, StopsWord])).2.symm⟩
      | some w =>
        cases glued' with
        | none => exact absurd heq (h.glued w rfl).ne_nil
        | some v => exact ⟨rfl, congrArg some heq⟩
  | [], _ :: _, _, _, h, h', heq => absurd heq (body_nil_ne_body_cons h h')
  | _ :: _, [], _, _, h, h', heq => absurd heq.symm (body_nil_ne_body_cons h' h)
  | (w, gap) :: spaced, (w', gap') :: spaced', _, _, h, h', heq => by
      have hwords : ∀ {v : List Char}, IsClauseWord v → ∀ c ∈ v, (!isBlank c) = true := by
        intro v hv c hc
        rw [hv.isBlank c hc]
        rfl
      have hgaps : ∀ {t r : List Char}, AllBlank t → t ≠ [] →
          ∀ c ∈ (t ++ r).head?, (!isBlank c) = false := by
        intro t r ht hne c hc
        obtain ⟨d, u, rfl⟩ := List.exists_cons_of_ne_nil hne
        obtain rfl : d = c := by simpa using hc
        rw [ht d List.mem_cons_self]
        rfl
      obtain ⟨hw, hgap, hne⟩ : IsClauseWord w ∧ AllBlank gap ∧ gap ≠ [] :=
        h.spaced _ List.mem_cons_self
      obtain ⟨hw', hgap', hne'⟩ : IsClauseWord w' ∧ AllBlank gap' ∧ gap' ≠ [] :=
        h'.spaced _ List.mem_cons_self
      rw [body_cons, body_cons] at heq
      obtain ⟨rfl, hbehind⟩ := run_append_inj (hwords hw) (hwords hw') (hgaps hgap hne)
        (hgaps hgap' hne') heq
      obtain ⟨rfl, hbody⟩ := run_append_inj hgap hgap' h.tail.isBlank_head_body
        h'.tail.isBlank_head_body hbehind
      obtain ⟨rfl, rfl⟩ := body_inj h.tail h'.tail hbody
      exact ⟨rfl, rfl⟩

/-- What stands in front of the marker has one form at most. -/
theorem eq_of_text_eq {f g : LineFront} (hf : f.WellFormed) (hg : g.WellFormed)
    (h : f.text = g.text) : f = g := by
  obtain ⟨indent, spaced, glued⟩ := f
  obtain ⟨indent', spaced', glued'⟩ := g
  obtain ⟨rfl, hbody⟩ :=
    run_append_inj hf.indent hg.indent hf.isBlank_head_body hg.isBlank_head_body h
  obtain ⟨rfl, rfl⟩ := body_inj hf hg hbody
  rfl

end LineFront

/-! ## The whole line -/

/-- A text line in its pieces. -/
structure LineForm extends LineFront where
  /-- What the marker says. -/
  kind : MessageKind
  /-- What stands behind the marker. -/
  rest : List Char
deriving DecidableEq, Repr

/-- The offsets of a layout: where each word starts and ends, the marker, and the text. -/
def Layout.offsets (l : Layout) : List Nat :=
  l.clauses.flatMap (fun w => [w.start, w.stop]) ++ [l.marker, l.textStart]

namespace LineForm

/-- The line. -/
def line (f : LineForm) : List Char := f.text ++ f.kind.marker :: f.rest

/-- What the pieces say about the layout of the line: the text stands behind the marker, or behind
one space or tab that follows the marker. -/
def layout (f : LineForm) : Layout where
  kind := f.kind
  clauses := f.segments
  marker := byteLength f.text
  textStart := if f.rest.head? = some ' ' ∨ f.rest.head? = some '\t' then byteLength f.text + 2
    else byteLength f.text + 1

theorem gapLength_eq (rest : List Char) :
    Layout.gapLength rest = if rest.head? = some ' ' ∨ rest.head? = some '\t' then 1 else 0 := by
  cases rest with
  | nil => rfl
  | cons c rest => simp [Layout.gapLength]

/-- A line that has a form has its layout. -/
theorem layout?_line {f : LineForm} (hf : f.WellFormed) : layout? f.line = some f.layout := by
  have hrun := Layout.layoutFrom?_of_clauseRun (hf.clauseRun 0) f.kind f.rest
  rw [Nat.zero_add, Nat.zero_add, gapLength_eq] at hrun
  rw [line, layout?, LineFront.text, hrun, layout, LineFront.text]
  split <;> rfl

/-- A line that has a layout has a form. -/
theorem exists_of_layout? {line : List Char} {l : Layout} (h : layout? line = some l) :
    ∃ f : LineForm, f.WellFormed ∧ f.line = line := by
  obtain ⟨pre, post, rfl, hrun, -⟩ := layout?_eq_some_iff.1 h
  obtain ⟨f, hf, rfl, -⟩ := LineFront.exists_of_clauseRun hrun
  exact ⟨⟨f, l.kind, post⟩, hf, rfl⟩

/-- **A line has one form at most**: the layout fixes the marker and its place. -/
theorem eq_of_line_eq {f g : LineForm} (hf : f.WellFormed) (hg : g.WellFormed)
    (h : f.line = g.line) : f = g := by
  have hlayout : f.layout = g.layout := by
    rw [← Option.some.injEq, ← layout?_line hf, ← layout?_line hg, h]
  obtain ⟨htext, hrest⟩ := byteLength_append_inj h (congrArg Layout.marker hlayout)
  have hfront := LineFront.eq_of_text_eq hf hg htext
  obtain ⟨front, kind, rest⟩ := f
  obtain ⟨front', kind', rest'⟩ := g
  obtain rfl : front = front' := hfront
  obtain rfl : kind = kind' := congrArg Layout.kind hlayout
  obtain rfl : rest = rest' := (List.cons.inj hrest).2
  rfl

/-- The offsets of the layout lie between characters of the line. -/
theorem isBoundary_offsets {f : LineForm} (hf : f.WellFormed) {offset : Nat}
    (h : offset ∈ f.layout.offsets) : IsBoundary f.line offset := by
  rw [Layout.offsets, List.mem_append, List.mem_flatMap] at h
  rcases h with ⟨w, hw, hoffset⟩ | hoffset
  · have hmem : w ∈ LineFront.segmentsFrom (0 + byteLength f.indent) f.glued f.spaced := by
      rwa [Nat.zero_add]
    obtain ⟨a, b, htext, hstart, -⟩ := (hf.clauseRun 0).exists_append hmem
    rw [Nat.zero_add] at hstart
    have hline : f.line = a ++ w.text ++ (b ++ f.kind.marker :: f.rest) := by
      rw [line, LineFront.text, htext, List.append_assoc (a ++ w.text)]
    rw [hline]
    rw [List.mem_cons, List.mem_singleton] at hoffset
    rcases hoffset with rfl | rfl
    · exact ⟨a, w.text ++ (b ++ f.kind.marker :: f.rest), List.append_assoc _ _ _, hstart.symm⟩
    · exact ⟨a ++ w.text, _, rfl, by rw [byteLength_append, Segment.stop, hstart]⟩
  · have hmarker : byteLength [f.kind.marker] = 1 := by cases f.kind <;> rfl
    rw [List.mem_cons, List.mem_singleton] at hoffset
    rcases hoffset with rfl | rfl
    · exact ⟨f.text, _, rfl, rfl⟩
    · rw [layout]
      split
      next hgap =>
        have hc : ∃ c, f.rest.head? = some c ∧ byteLength [c] = 1 :=
          hgap.elim (fun h => ⟨_, h, rfl⟩) (fun h => ⟨_, h, rfl⟩)
        obtain ⟨c, hc, hlength⟩ := hc
        obtain ⟨t, ht⟩ := List.head?_eq_some_iff.1 hc
        refine ⟨f.text ++ [f.kind.marker] ++ [c], t, by simp [line, ht], ?_⟩
        rw [byteLength_append, byteLength_append, hmarker, hlength]
      next =>
        refine ⟨f.text ++ [f.kind.marker], f.rest, by simp [line], ?_⟩
        rw [byteLength_append, hmarker]

end LineForm

/-- **The grammar of text lines.** A line has a layout exactly when it has a form. That form is the
only one, the layout is the one that it says, and all offsets lie between characters of the line. -/
theorem layout?_grammar (line : List Char) :
    ((layout? line).isSome = true ↔ ∃ f : LineForm, f.WellFormed ∧ f.line = line) ∧
      ∀ f : LineForm, f.WellFormed → f.line = line →
        (∀ g : LineForm, g.WellFormed → g.line = line → g = f) ∧
        layout? line = some f.layout ∧
        ∀ offset ∈ f.layout.offsets, IsBoundary line offset := by
  refine ⟨⟨?_, ?_⟩, ?_⟩
  · intro h
    obtain ⟨l, hl⟩ := Option.isSome_iff_exists.1 h
    exact LineForm.exists_of_layout? hl
  · rintro ⟨f, hf, rfl⟩
    rw [LineForm.layout?_line hf]
    rfl
  · rintro f hf rfl
    refine ⟨fun g hg h => LineForm.eq_of_line_eq hg hf h, LineForm.layout?_line hf, ?_⟩
    intro offset hoffset
    exact LineForm.isBoundary_offsets hf hoffset

/-- `  mode:not true-or:$é,b-  hi`: two words, the second one with a hyphen in its name and the
marker glued to it. -/
def hyphenForm : LineForm :=
  ⟨⟨"  ".toList, [("mode:not".toList, " ".toList)], some "true-or:$é,b".toList⟩, .append,
    "  hi".toList⟩

theorem wellFormed_hyphenForm : hyphenForm.WellFormed := by
  have hblank : ∀ n, AllBlank (List.replicate n ' ') := fun n c hc => by
    rw [List.eq_of_mem_replicate hc]
    decide
  refine ⟨hblank 2, ?_, ?_⟩
  · intro p hp
    rw [List.mem_singleton.1 hp]
    exact ⟨Or.inl rfl, hblank 1, by decide⟩
  · rintro w ⟨rfl⟩
    exact Or.inr ⟨.condition .anyTrue, "$é,b".toList, by decide +kernel, by decide +kernel⟩

theorem layout?_grammar_hyphenLine :
    (hyphenForm.WellFormed ∧ hyphenForm.line = "  mode:not true-or:$é,b-  hi".toList) ∧
      layout? "  mode:not true-or:$é,b-  hi".toList =
        some ⟨.append, [⟨2, "mode:not".toList⟩, ⟨11, "true-or:$é,b".toList⟩], 24, 26⟩ := by
  have hline : hyphenForm.line = "  mode:not true-or:$é,b-  hi".toList := by decide +kernel
  refine ⟨⟨wellFormed_hyphenForm, hline⟩, ?_⟩
  rw [((layout?_grammar _).2 hyphenForm wellFormed_hyphenForm hline).2.1]
  decide +kernel

end Gamebook
