import Gamebook.Proofs.Place.Selection

/-!
Gamebook.Proofs.Check.Argument — the arguments of a line are the words that the reader takes.

The checks read the arguments in place: they skip the keyword, cut the comment off what is left, and
count bytes from the start of the line. The reader trims the line, cuts the comment, trims once more
and splits all of it into words. The two agree because no quotation mark stands in a keyword, and
because blanks at the end of what is left are never quoted.

`arguments_eq_words` says so for the words, for their places, for the tokens and for the arguments of
a command, which the reader keeps as they are written.
-/

namespace Gamebook

open Text

/-- What the reader keeps of the words of a command: all but the keyword and the name. -/
theorem CodeLine.arguments_of_command {line : CodeLine} {name : String} {args : List String}
    (h : line.command = .exec name args) :
    args = ((words line.source).drop 2).map String.ofList := by
  unfold CodeLine.command at h
  split at h
  next => split at h <;> exact absurd h (by simp [CodeLine.broken])
  next =>
    split at h
    next => exact absurd h (by simp [CodeLine.broken])
    next =>
      rw [← (Command.exec.inj h).2, words, ← List.map_drop, List.map_map]
      rfl
  next => exact absurd h (by simp)
  next => exact absurd h (by simp)
  next => exact absurd h (by simp)
  next => exact absurd h (by simp [CodeLine.broken])

/-- **The arguments that the checks see are the words that the reader takes.** They are the words of
the line behind its keyword, in the same order, and each one stands in the line where its offset says.
They become the tokens behind the keyword, and those of a command are kept as they are. -/
theorem Line.arguments_eq_words {n : Nat} {raw : List Char} {k : Keyword}
    (hk : (ofRaw n raw).keyword? = some k) :
    ((ofRaw n raw).arguments k).map Segment.text =
        ((segments (trimEnd (stripComment (trim raw)))).drop 1).map Segment.text ∧
      (∀ a ∈ (ofRaw n raw).arguments k, a.span.Selects (chop '\r' raw) a.text) ∧
      ∃ line, CodeLine.ofRaw? n raw = some line ∧
        line.tokens =
          .keyword k :: ((ofRaw n raw).arguments k).map (fun a => Token.ofWord a.text) ∧
        ∀ name args, line.command = .exec name args →
          args = (((ofRaw n raw).arguments k).drop 1).map fun a => String.ofList a.text := by
  obtain ⟨source, hline, hwords⟩ := CodeLine.ofRaw?_of_keyword? hk
  obtain ⟨-, hcode⟩ := CodeLine.ofRaw?_eq_some_iff.1 hline
  obtain rfl : source = lineBody raw := congrArg CodeLine.source hcode
  refine ⟨?_, fun a ha => (selects_of_mem_arguments hk ha).1, _, hline, rfl, ?_⟩
  · have hdrop := congrArg (List.drop 1) hwords
    rw [words, ← List.map_drop] at hdrop
    exact hdrop.symm
  · intro name args hcommand
    have hargs := CodeLine.arguments_of_command hcommand
    rw [hwords, List.drop_succ_cons, ← List.map_drop, List.map_map] at hargs
    exact hargs

/-- An indented command whose text holds a quoted `//`, with a comment and a carriage return. -/
def bellLine : List Char := "  EXEC #BELL \"é // é\" $a // twice\r".toList

theorem keyword?_bellLine : (Line.ofRaw 3 bellLine).keyword? = some .exec ∧
    (Line.ofRaw 3 bellLine).arguments .exec =
      [⟨7, "#BELL".toList⟩, ⟨13, "\"é // é\"".toList⟩, ⟨24, "$a".toList⟩] := by
  decide +kernel

/-- The reader takes the same three words, and each stands where its offset says. -/
theorem arguments_bellLine :
    (Line.ofRaw 3 bellLine).keyword? = some .exec ∧
      ((segments (trimEnd (stripComment (trim bellLine)))).drop 1).map Segment.text =
        ["#BELL".toList, "\"é // é\"".toList, "$a".toList] ∧
      Span.Selects (chop '\r' bellLine) ⟨24, 26⟩ "$a".toList ∧
      ∃ line, CodeLine.ofRaw? 3 bellLine = some line ∧
        ∀ name args, line.command = .exec name args → args = ["\"é // é\"", "$a"] := by
  obtain ⟨hk, hargs⟩ := keyword?_bellLine
  obtain ⟨hwords, hplaces, line, hline, -, hcommand⟩ := Line.arguments_eq_words hk
  rw [hargs] at hwords hplaces hcommand
  refine ⟨hk, hwords.symm, hplaces ⟨24, "$a".toList⟩ (by simp), line, hline, ?_⟩
  intro name args h
  exact hcommand name args h

end Gamebook
