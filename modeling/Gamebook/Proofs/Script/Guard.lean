import Gamebook.Proofs.Check.Code
import Gamebook.Proofs.Script.Reader
import Mathlib.Data.List.Basic

/-!
Gamebook.Proofs.Script.Guard — the clauses of a line, and the flags in them.

The clauses that the reader keeps of a line are those of its clause words (`CodeLine.guards_eq`).
What stands between the commas behind the colon of such a word is a flag for the reader, whatever it
looks like (`exists_listsFlag`). Only what is written as a `$` and a whole name, outside quotation
marks, is a flag for the checks too (`IsPlainFlag`).
-/

namespace Gamebook

open Text

/-! ## Flags of clauses -/

/-- The flags in the conditions and effects of a transition. -/
def Transition.clauseFlags (t : Transition) : List String :=
  t.conditions.flatMap Condition.flags ++ t.effects.flatMap Effect.flags

/-- The flags in the conditions and effects of a command, and of its options. -/
def Command.clauseFlags : Command → List String
  | .textLine _ conditions _ => conditions.flatMap Condition.flags
  | command => command.transitions.flatMap Transition.clauseFlags

/-- The flags in all conditions and effects of a script. -/
def Script.clauseFlags (script : Script) : List String :=
  script.pages.flatMap fun page => page.commands.flatMap Command.clauseFlags

/-- Reading clauses adds no flags. -/
theorem exists_clause_of_mem_readGuards {f : String} : ∀ {gs : List Guard} {negated : Bool},
    f ∈ (readGuards negated gs).1.flatMap Condition.flags ++
      (readGuards negated gs).2.flatMap Effect.flags →
        ∃ c, Guard.clause c ∈ gs ∧ f ∈ c.flags
  | [], _, h => by simp [readGuards] at h
  | .negate :: gs, _, h => by
      obtain ⟨c, hc, hf⟩ := @exists_clause_of_mem_readGuards f gs true h
      exact ⟨c, List.mem_cons_of_mem _ hc, hf⟩
  | .clause c :: gs, negated, h => by
      have hrest : f ∈ (readGuards false gs).1.flatMap Condition.flags ++
          (readGuards false gs).2.flatMap Effect.flags →
            ∃ c', Guard.clause c' ∈ Guard.clause c :: gs ∧ f ∈ c'.flags := by
        intro hf
        obtain ⟨c', hc', hf'⟩ := exists_clause_of_mem_readGuards hf
        exact ⟨c', List.mem_cons_of_mem _ hc', hf'⟩
      simp only [readGuards] at h
      split at h
      all_goals
        simp only [List.flatMap_cons, List.mem_append] at h hrest
        grind

/-! ## Clause words -/

/-- The clause-shaped words that a token holds. -/
def Token.guards : Token → List Guard
  | .message _ guards _ => guards
  | .guard g => [g]
  | _ => []

/-- The clause-shaped words that the reader keeps of the line. -/
def CodeLine.guards (line : CodeLine) : List Guard := line.tokens.flatMap Token.guards

/-- The words of the line that may be clauses: those in front of the marker of a text line, or all
words of any other line. -/
def CodeLine.clauseWords (line : CodeLine) : List (List Char) :=
  match layout? line.source with
  | some l => l.clauses.map Segment.text
  | none => words line.source

theorem Token.ofWord_ne_message (w : List Char) (kind : MessageKind) (guards : List Guard)
    (text : String) : ofWord w ≠ .message kind guards text := by
  intro h
  rcases sigil_or_plain w with ⟨c, s, rfl, hc⟩ | hplain
  · have hsigiled := isSigiled_ofWord hc s
    rw [h] at hsigiled
    exact absurd hsigiled id
  · rw [hplain] at h
    unfold ofPlainWord at h
    split at h
    next => exact absurd h (by simp)
    next =>
      split at h
      next => split at h <;> exact absurd h (by simp)
      next => split at h <;> exact absurd h (by simp)

theorem Token.guards_ofWord (w : List Char) : (ofWord w).guards = (Guard.ofWord? w).toList := by
  rw [← guard?_ofWord]
  cases h : ofWord w with
  | message kind guards text => exact absurd h (ofWord_ne_message w kind guards text)
  | _ => rfl

/-- **The clauses of a line are those of its clause words.** -/
theorem CodeLine.guards_eq {n : Nat} {raw : List Char} {line : CodeLine}
    (h : CodeLine.ofRaw? n raw = some line) :
    line.guards = line.clauseWords.filterMap Guard.ofWord? := by
  obtain ⟨-, rfl⟩ := CodeLine.ofRaw?_eq_some_iff.1 h
  unfold guards clauseWords
  cases hl : layout? (lineBody raw) with
  | some l =>
    rw [Token.ofLine, hl]
    simp [Token.guards, List.filterMap_map]
  | none =>
    rw [Token.ofLine_of_layout?_eq_none hl, List.flatMap_map]
    simp only [Token.guards_ofWord]
    exact (List.filterMap_eq_flatMap_toList _ _).symm

/-! ## Flags as they are written -/

/-- The flag that is written as `piece`: the piece without one `$` at its start. -/
def flagOf (piece : List Char) : String := String.ofList ((dropPrefix? ['$'] piece).getD piece)

/-- Behind `front`, the clause `w` lists a flag that is written as `piece`. -/
def ListsFlag (w front piece : List Char) : Prop :=
  ∃ (k : ClauseKind) (a b : List Char), front = k.opening ++ a ∧ w = front ++ piece ++ b ∧
    piece ≠ [] ∧ ',' ∉ piece ∧ (∀ c ∈ a.getLast?, c = ',') ∧ ∀ c ∈ b.head?, c = ','

/-- The flag behind `front` is written as `$` and a whole name, outside quotation marks. -/
def IsPlainFlag (front piece : List Char) : Prop :=
  quotedAt false front = false ∧
    ∃ name, piece = '$' :: name ∧ name ≠ [] ∧ ∀ c ∈ name, isWordChar c = true

/-- On one of the lines, a clause word writes the flag in any other way. -/
def WrittenLoosely (lines : List CodeLine) (f : String) : Prop :=
  ∃ line ∈ lines, ∃ w ∈ line.clauseWords, ∃ front piece,
    ListsFlag w front piece ∧ flagOf piece = f ∧ ¬ IsPlainFlag front piece

/-- **Each flag of a clause is written somewhere in its list.** -/
theorem exists_listsFlag {w : List Char} {c : Clause} (h : Guard.ofWord? w = some (.clause c))
    {f : String} (hf : f ∈ c.flags) : ∃ front piece, ListsFlag w front piece ∧ flagOf piece = f := by
  rcases Guard.ofWord?_eq_some_iff.1 h with ⟨-, hneg⟩ | ⟨k, value, rfl, hc⟩
  · exact absurd hneg (by simp)
  · obtain rfl : c = ⟨k, flagList value⟩ := by simpa using hc
    obtain ⟨piece, hpiece, rfl⟩ := List.mem_map.1 hf
    obtain ⟨hmem, hne⟩ := List.mem_filter.1 hpiece
    obtain ⟨a, b, rfl, ha, hb⟩ := exists_append_of_mem_pieces hmem
    refine ⟨k.opening ++ a, piece, ⟨k, a, b, rfl, ?_, bne_iff_ne.1 hne,
      sep_notMem_of_mem_pieces hmem, ha, hb⟩, rfl⟩
    simp only [List.append_assoc]

theorem flagOf_plain (name : List Char) : flagOf ('$' :: name) = String.ofList name := by
  have h : dropPrefix? ['$'] ('$' :: name) = some name := dropPrefix?_append ['$'] name
  rw [flagOf, h, Option.getD_some]

end Gamebook
