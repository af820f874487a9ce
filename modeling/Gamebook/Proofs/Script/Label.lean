import Gamebook.Proofs.Script.Block
import Mathlib.Data.List.Basic

/-!
Gamebook.Proofs.Script.Label — what the options of a menu show.

The reader walks down the lines of a menu and carries the text of the line before with it. It drops
lines that lead nowhere on the way, and still takes their texts along. Seen from a single line, there
is no walk: a text is shown as it is, `/SAME` shows what the line in front of it shows, with nothing
in front an empty text, and every other label shows nothing (`shownAt`).

`shownTexts_behind` says that what the reader carries is never wrong, whichever lines are behind it.
`flush_options` draws the conclusion for the menu that a page closes, with two consequences: a
fallback option shows nothing, and a text lasts as long as `/SAME` follows `/SAME`, over options that
are dropped as well.
-/

namespace Gamebook

/-! ## Labels and texts by index -/

section

variable (lines : List CodeLine)

/-- The label of the line at an index. -/
def labelAt? (i : Nat) : Option OptionLabel := lines[i]?.bind CodeLine.label?

/-- The text that the line at an index shows. -/
def shownAt : Nat → Option String
  | 0 => match labelAt? lines 0 with
    | some (.text s) => some s
    | some (.special .same) => some ""
    | some (.special .cancel) | some (.special .timeup) | none => none
  | i + 1 => match labelAt? lines (i + 1) with
    | some (.text s) => some s
    | some (.special .same) => shownAt i
    | some (.special .cancel) | some (.special .timeup) | none => none

/-- The text that the line in front of an index shows; in front of the first line an empty one. -/
def shownBefore : Nat → Option String
  | 0 => some ""
  | i + 1 => shownAt lines i

/-- What a line shows hangs on its label and on the line in front of it. -/
theorem shownAt_eq (i : Nat) :
    shownAt lines i = shownText (shownBefore lines i) (labelAt? lines i) := by
  cases i with
  | zero =>
    rw [shownAt]
    split <;> simp_all [shownText, shownBefore]
  | succ i =>
    rw [shownAt]
    split <;> simp_all [shownText, shownBefore]

/-- Fallback options and lines without a label show nothing. -/
theorem shownAt_of_fallback {i : Nat} (h : labelAt? lines i = some (.special .cancel) ∨
    labelAt? lines i = some (.special .timeup) ∨ labelAt? lines i = none) :
    shownAt lines i = none := by
  rw [shownAt_eq]
  rcases h with h | h | h <;> rw [h] <;> rfl

/-- **A text lasts over a run of `/SAME`.** -/
theorem shownAt_of_same {i : Nat} : ∀ {j : Nat}, i ≤ j →
    (∀ k, i < k → k ≤ j → labelAt? lines k = some (.special .same)) →
      shownAt lines j = shownAt lines i
  | 0, hle, _ => by rw [Nat.le_zero.1 hle]
  | j + 1, hle, h => by
      rcases Nat.eq_or_lt_of_le hle with rfl | hlt
      · rfl
      · rw [shownAt_eq, h (j + 1) hlt (Nat.le_refl _)]
        exact shownAt_of_same (Nat.le_of_lt_succ hlt) fun k hik hkj => h k hik (Nat.le_succ_of_le hkj)

end

/-! ## The walk of the reader -/

/-- **The reader always carries the text of the line before.** Behind the lines `front`, the texts
that it finds are those of the lines, seen one by one. -/
theorem shownTexts_behind (lines : List CodeLine) : ∀ front : List CodeLine,
    shownTexts (shownBefore (front ++ lines) front.length) lines =
      (List.range' front.length lines.length).map (shownAt (front ++ lines)) := by
  induction lines with
  | nil => intro front; rfl
  | cons line lines ih =>
    intro front
    have hlabel : labelAt? (front ++ line :: lines) front.length = line.label? := by
      simp [labelAt?]
    have hhere := shownAt_eq (front ++ line :: lines) front.length
    rw [hlabel] at hhere
    have hrest := ih (front ++ [line])
    rw [List.append_assoc, List.singleton_append, List.length_append, List.length_singleton] at hrest
    rw [shownTexts, List.length_cons, List.range'_succ, List.map_cons, ← hhere, ← hrest]
    rfl

/-- The options of a menu, line by line. -/
theorem menuOptions_eq (lines : List CodeLine) :
    menuOptions (some "") lines =
      lines.zipIdx.filterMap fun (line, i) => line.option? (shownAt lines i) := by
  have htexts : shownTexts (some "") lines =
      (List.range' 0 lines.length).map (shownAt lines) := shownTexts_behind lines []
  rw [menuOptions, htexts, List.zip_map_right, List.filterMap_map, List.zipIdx_eq_zip_range']
  rfl

/-- **The options of a menu show what their labels say.** Where a page closes its menu, each line of
the menu that leads somewhere becomes one option, in the order of the lines. It shows the text of its
own line, and it is a fallback option if the label of the line says so. No fallback option shows
anything; and what an option shows, all options behind it show for which only `/SAME` stands in
between, whether the lines lead somewhere or not. -/
theorem OpenPage.flush_options (name : String) (commands : List Command) (menu : OpenMenu) :
    let label := labelAt? menu.options
    let shown := shownAt menu.options
    let options : List ChoiceOption := menu.options.zipIdx.filterMap fun (line, i) =>
      line.transition?.map fun t =>
        ⟨shown i, label i = some (.special .cancel), label i = some (.special .timeup), t⟩
    flush ⟨name, commands, some menu⟩ =
      ⟨name, commands ++ .choice menu.time options :: brokenOptions menu.options, none⟩ ∧
    (∀ o ∈ options, o.isCancel = true ∨ o.isTimeout = true → o.text = none) ∧
    ∀ i j t, i ≤ j → shown i = some t →
      (∀ k, i < k → k ≤ j → label k = some (.special .same)) → shown j = some t := by
  intro label shown options
  have hoptions : menuOptions (some "") menu.options = options := by
    rw [menuOptions_eq]
    refine List.filterMap_congr fun ⟨line, i⟩ hmem => ?_
    have hlabel : label i = line.label? := by
      rw [show label i = menu.options[i]?.bind CodeLine.label? from rfl,
        List.mem_zipIdx_iff_getElem?.1 hmem]
      rfl
    show line.option? (shownAt menu.options i) = _
    simp only [CodeLine.option?, hlabel]
    rfl
  refine ⟨?_, fun o ho hfallback => ?_, fun i j t hle hi hsame => ?_⟩
  · have hcommands : menu.commands = .choice menu.time options :: brokenOptions menu.options := by
      rw [OpenMenu.commands_eq, menuCommands, hoptions]
    show (⟨name, commands ++ menu.commands, none⟩ : OpenPage) = _
    rw [hcommands]
  · obtain ⟨⟨line, i⟩, -, hoption⟩ := List.mem_filterMap.1 ho
    obtain ⟨t, -, rfl⟩ := Option.map_eq_some_iff.1 hoption
    refine shownAt_of_fallback menu.options ?_
    rcases hfallback with h | h
    · exact Or.inl (of_decide_eq_true h)
    · exact Or.inr (Or.inl (of_decide_eq_true h))
  · exact (shownAt_of_same menu.options hle hsame).trans hi

/-- A text that is repeated twice, the first time by an option that leads nowhere, and a fallback
option that another `/SAME` follows. -/
def echoMenu : OpenMenu :=
  ⟨none, codeLines "IS \"Go\" @a\nIS /SAME\nIS /SAME @b\nIS /CANCEL @a\nIS /SAME @c".toList⟩

theorem labels_echoMenu :
    (shownAt echoMenu.options 0 = some "Go" ∧
      ∀ k < 3, 0 < k → labelAt? echoMenu.options k = some (.special .same)) ∧
    (echoMenu.options.zipIdx.filterMap fun (line, i) => line.transition?.map fun t =>
      (⟨shownAt echoMenu.options i, labelAt? echoMenu.options i = some (.special .cancel),
        labelAt? echoMenu.options i = some (.special .timeup), t⟩ : ChoiceOption)) =
      [⟨some "Go", false, false, ⟨.page "a", [], []⟩⟩, ⟨some "Go", false, false, ⟨.page "b", [], []⟩⟩,
        ⟨none, true, false, ⟨.page "a", [], []⟩⟩, ⟨none, false, false, ⟨.page "c", [], []⟩⟩] ∧
    brokenOptions echoMenu.options = [.broken 2 "IS /SAME"] := by
  decide +kernel

/-- The text reaches over the option that leads nowhere, and ends at the fallback option. -/
theorem flush_options_echoMenu :
    shownAt echoMenu.options 2 = some "Go" ∧
    OpenPage.flush ⟨"p", [], some echoMenu⟩ = ⟨"p", [.choice none
      [⟨some "Go", false, false, ⟨.page "a", [], []⟩⟩, ⟨some "Go", false, false, ⟨.page "b", [], []⟩⟩,
        ⟨none, true, false, ⟨.page "a", [], []⟩⟩, ⟨none, false, false, ⟨.page "c", [], []⟩⟩],
      .broken 2 "IS /SAME"], none⟩ := by
  obtain ⟨⟨hfirst, hsame⟩, hoptions, hbroken⟩ := labels_echoMenu
  obtain ⟨hflush, -, hlasts⟩ := OpenPage.flush_options "p" [] echoMenu
  refine ⟨hlasts 0 2 "Go" (by decide) hfirst fun k hk hle => hsame k (by omega) hk, ?_⟩
  rw [hflush, hoptions, hbroken]
  rfl

end Gamebook
