import Gamebook.Proofs.Place.Selection
import Gamebook.Proofs.Text.Blanking
import Gamebook.Proofs.Text.Comment

/-!
Gamebook.Proofs.Place.Blanked — places in the code of a line are places in the line.

References are searched for in a copy of the line without its comment in which quoted text is
blanked, and the places that were found are reported as places in the line. `BlanksQuoted` is what
that rests on: the copy has the bytes of the line where they are not quoted, it is cut and split as
the line is, and what stands in it outside quoted text stands in the line.
-/

namespace Gamebook

open Text

namespace Text

/-! ## The code of a line -/

/-- The text `code` is the line `raw` without its comment, with its quoted text blanked. -/
structure BlanksQuoted (raw code : List Char) : Prop where
  /-- It has as many bytes as the line without its comment. -/
  length : (utf8 code).length = (utf8 (stripComment raw)).length
  /-- Each of its bytes is a space or the byte that stands there. -/
  byte : ∀ i < (utf8 code).length, (utf8 code)[i]? =
    if IsBlanked (utf8 (stripComment raw)) i then some spaceByte
    else (utf8 (stripComment raw))[i]?
  /-- It has no comment. -/
  noComment : stripComment code = code
  /-- Its words stand where those of the line stand. -/
  spans : (segments code).map Segment.span = (segments (stripComment raw)).map Segment.span
  /-- A stretch of it without a blanked byte is a stretch of the line. -/
  selects : ∀ span : Span, span.Fits code →
    (∀ i, span.start ≤ i → i < span.stop → ¬ IsBlanked (utf8 (stripComment raw)) i) →
      ∃ w, span.Selects code w ∧ span.Selects raw w

theorem selects_of_not_isBlanked {raw : List Char} {span : Span}
    (hfits : span.Fits (blankQuoted (stripComment raw)))
    (hkept : ∀ i, span.start ≤ i → i < span.stop → ¬ IsBlanked (utf8 (stripComment raw)) i) :
    ∃ w, span.Selects (blankQuoted (stripComment raw)) w ∧ span.Selects raw w := by
  obtain ⟨a, w, b, hcode, hw, rfl⟩ := hfits.exists_selects
  obtain ⟨p, r, hs, hp⟩ := exists_append_of_not_isBlanked hcode hw hkept
  obtain ⟨u, hu⟩ := stripCommentFrom_prefix false raw
  refine ⟨w, ⟨a, b, by rw [hcode, List.append_assoc], rfl⟩, p, r ++ u, ?_, by rw [hp]⟩
  rw [← hu, ← stripComment, hs]
  simp only [List.append_assoc]

end Text

/-- **Places in the code of a line are places in the line.** For every text the copy that is
searched for references has the bytes of the text without its comment, except for quoted ones, and
what such a search finds outside quoted text stands in the text, too. -/
theorem Line.code_blanksQuoted :
    (∀ raw, BlanksQuoted raw (blankQuoted (stripComment raw))) ∧
      ∀ line : Line, layout? line.raw = none → line.code = blankQuoted (stripComment line.raw) := by
  refine ⟨fun raw => ?_, fun line => code_of_layout?_eq_none⟩
  have hlength : (utf8 (blankQuoted (stripComment raw))).length =
      (utf8 (stripComment raw)).length := by
    rw [length_utf8, length_utf8, blankQuoted, byteLength_blankQuotedFrom]
  constructor
  · exact hlength
  · intro i hi
    rw [hlength, length_utf8] at hi
    exact getElem?_utf8_blankQuoted hi
  · rw [stripComment, blankQuoted, stripCommentFrom_blankQuotedFrom]
    exact congrArg blankQuoted (noComment_iff.1 (noComment_stripComment raw))
  · exact map_span_segments_blankQuoted (stripComment raw)
  · intro span hfits hkept
    exact selects_of_not_isBlanked hfits hkept

/-- A line with a letter of two bytes in its quoted text. -/
def quotedLine : Line := ⟨1, "TO @a \"é/\" $b // c".toList⟩

/-- The flag behind the quoted text is found at its place in the line. -/
theorem Line.code_blanksQuoted_quotedLine :
    quotedLine.code = "TO @a \"   \" $b ".toList ∧
      ∃ w, Span.Selects quotedLine.code ⟨12, 14⟩ w ∧ Span.Selects quotedLine.raw ⟨12, 14⟩ w := by
  have hcode := Line.code_blanksQuoted.2 quotedLine (by decide +kernel)
  have htext : blankQuoted (stripComment quotedLine.raw) = "TO @a \"   \" $b ".toList := by decide
  refine ⟨hcode.trans htext, ?_⟩
  rw [hcode]
  refine (Line.code_blanksQuoted.1 quotedLine.raw).selects ⟨12, 14⟩ ?_ ?_
  · rw [htext]
    exact (Span.Selects.of_append "TO @a \"   \" ".toList [' '] ['$', 'b']).fits (by simp)
  · intro i hle hlt
    obtain rfl | rfl : i = 12 ∨ i = 13 := by
      change 12 ≤ i at hle
      change i < 14 at hlt
      omega
    · decide +kernel
    · decide +kernel

end Gamebook
