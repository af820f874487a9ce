import Gamebook.Proofs.Check.Line

/-!
Gamebook.Proofs.Check.Opening — the keyword that a line opens with, on both sides.

The checks ask for the letters of a keyword at the start of the trimmed line, with a blank or
nothing behind them; they look at comments later. The reader cuts the comment first, and then takes
the first word for a keyword if it is one. Both let a word go on behind a quotation mark, and both
let it end at any blank and at the end of the line.

They differ where a comment follows the letters at once (`GluesComment`): the reader is left with
the keyword, and the checks see a word that goes on.

* `readKeyword?_eq_some_iff`: the reader sees the keywords that the checks see, and the glued ones.
* `keyword?_iff_readKeyword?_iff`: the two see the same keyword exactly on the lines that glue no
  comment to one.
-/

namespace Gamebook

open Text

/-- The keyword that the first token of the line is. -/
def CodeLine.keyword? (line : CodeLine) : Option Keyword :=
  match line.tokens with
  | .keyword k :: _ => some k
  | _ => none

/-- The keyword that the reader takes a line of the text to open with. A line without code opens
with none. -/
def readKeyword? (n : Nat) (raw : List Char) : Option Keyword :=
  (CodeLine.ofRaw? n raw).bind CodeLine.keyword?

/-- The line is the keyword and a comment right behind it. -/
def GluesComment (raw : List Char) (k : Keyword) : Prop :=
  ∃ r, trim raw = k.letters ++ '/' :: '/' :: r

variable {n : Nat} {raw : List Char} {k : Keyword}

theorem CodeLine.keyword?_eq_some_iff {line : CodeLine} :
    line.keyword? = some k ↔ line.opensWith k = true := by
  rw [keyword?, opensWith, beq_iff_eq]
  split
  next j ts htokens => rw [htokens]; simp
  next hother =>
    refine ⟨fun h => absurd h (by simp), fun h => ?_⟩
    obtain ⟨ts, hts⟩ := List.head?_eq_some_iff.1 h
    exact absurd hts (hother k ts)

/-! ## Glued comments -/

/-- The reader is left with the keyword. -/
theorem CodeLine.ofRaw?_of_gluesComment (h : GluesComment raw k) :
    CodeLine.ofRaw? n raw = some ⟨n, k.letters, [.keyword k]⟩ := by
  obtain ⟨r, hr⟩ := h
  have hbody : lineBody raw = k.letters := by
    have hcut : trimEnd (stripComment ('/' :: '/' :: r)) = [] := by
      rw [stripComment, stripCommentFrom]
      rfl
    rw [lineBody_of_letters hr, hcut, List.append_nil]
  have hwords : words k.letters = [k.letters] :=
    words_of_isWord (isWord_of_no_blank k.letters_ne_nil k.isBlank_of_mem_letters)
  refine CodeLine.ofRaw?_eq_some_iff.2 ⟨by rw [hbody]; exact k.letters_ne_nil, ?_⟩
  rw [Token.ofLine_of_layout?_eq_none (layout?_lineBody_of_letters hr), hbody, hwords,
    List.map_singleton, Token.ofWord_letters]

/-- The checks see no keyword at all. -/
theorem Line.keyword?_of_gluesComment (h : GluesComment raw k) :
    (Line.ofRaw n raw).keyword? = none := by
  cases hj : (Line.ofRaw n raw).keyword? with
  | none => rfl
  | some j =>
    -- The reader would see this keyword too, so it is `k`, and then a blank stands behind it.
    obtain ⟨source, hsource, -⟩ := CodeLine.ofRaw?_of_keyword? hj
    rw [CodeLine.ofRaw?_of_gluesComment h, Option.some.injEq, CodeLine.mk.injEq, List.cons.injEq,
      Token.keyword.injEq] at hsource
    obtain rfl := hsource.2.2.1
    obtain ⟨r, hr⟩ := h
    obtain ⟨s, hs, hstop⟩ := Line.keyword?_eq_some_iff.1 hj
    rw [hr, List.append_cancel_left_eq] at hs
    exact absurd (hstop '/' (by rw [← hs]; rfl)) (by decide)

/-! ## Both sides -/

/-- **The reader sees the keywords that the checks see, and those with a comment glued to them.** -/
theorem readKeyword?_eq_some_iff :
    readKeyword? n raw = some k ↔
      (Line.ofRaw n raw).keyword? = some k ∨ GluesComment raw k := by
  rw [readKeyword?, Option.bind_eq_some_iff]
  constructor
  · rintro ⟨line, hline, hk⟩
    rcases Line.keyword?_of_opensWith hline (CodeLine.keyword?_eq_some_iff.1 hk) with h | ⟨h, -⟩
    · exact Or.inl h
    · exact Or.inr h
  · rintro (h | h)
    · obtain ⟨source, hsource, -⟩ := CodeLine.ofRaw?_of_keyword? h
      exact ⟨_, hsource, rfl⟩
    · exact ⟨_, CodeLine.ofRaw?_of_gluesComment h, rfl⟩

/-- **Checks and reader see the same keyword on a line exactly when it glues no comment to one.** -/
theorem keyword?_iff_readKeyword?_iff (n : Nat) (raw : List Char) :
    (∀ k, (Line.ofRaw n raw).keyword? = some k ↔ readKeyword? n raw = some k) ↔
      ∀ k, ¬ GluesComment raw k := by
  constructor
  · intro h k hglue
    have hk := (h k).2 (readKeyword?_eq_some_iff.2 (Or.inr hglue))
    rw [Line.keyword?_of_gluesComment hglue] at hk
    exact absurd hk (by simp)
  · intro h k
    rw [readKeyword?_eq_some_iff]
    exact ⟨Or.inl, fun hor => hor.resolve_right (h k)⟩

/-- A PAGE line with a comment right behind the keyword. -/
def gluedLine : List Char := "PAGE//x".toList

/-- **The reader takes it for a PAGE line, the checks see no keyword.** -/
theorem readKeyword?_gluedLine :
    readKeyword? 2 gluedLine = some .page ∧ (Line.ofRaw 2 gluedLine).keyword? = none := by
  decide +kernel

end Gamebook
