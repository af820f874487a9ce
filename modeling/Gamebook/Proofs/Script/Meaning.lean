import Gamebook.Script.Reader
import Mathlib.Data.List.DropRight

/-!
Gamebook.Proofs.Script.Meaning — what the clauses of a line mean.

A clause stands under a negation if there is a `mode:not` between the clause before it and itself,
whatever else stands there (`negationWaits`). The reader keeps this in one flag that it carries from
word to word; `readGuards_behind` says that the flag is never wrong. So each clause is read as one
condition or one effect, with its own flags.

Over values of the flags, a condition under a negation holds exactly where it would fail otherwise,
also with no flags at all (`ConditionPolarity.holds_negate`), and an effect under a negation leaves
the other value (`EffectPolarity.value_negate`). `readGuards_meaning` puts both together.
-/

namespace Gamebook

/-! ## Values of flags -/

/-- The condition holds of the flags. -/
def ConditionPolarity.holds (values : String → Bool) (flags : List String) :
    ConditionPolarity → Bool
  | allTrue => flags.all values
  | allFalse => flags.all fun f => !values f
  | anyTrue => flags.any values
  | anyFalse => flags.any fun f => !values f

/-- The value that the effect leaves. -/
def EffectPolarity.value : EffectPolarity → Bool
  | setTrue => true
  | setFalse => false

/-- The opposite condition holds where the condition fails, for every list of flags. -/
theorem ConditionPolarity.holds_negate (values : String → Bool) (flags : List String)
    (p : ConditionPolarity) : p.negate.holds values flags = !p.holds values flags := by
  cases p <;> simp [negate, holds, List.not_all_eq_any_not, List.not_any_eq_all_not]

theorem EffectPolarity.value_negate (p : EffectPolarity) : p.negate.value = !p.value := by
  cases p <;> rfl

/-- The flags get a value, all others keep theirs. -/
def assign (values : String → Bool) (flags : List String) (value : Bool) : String → Bool :=
  fun f => if f ∈ flags then value else values f

/-- The condition holds. -/
def Condition.holds (values : String → Bool) (c : Condition) : Bool :=
  c.polarity.holds values c.flags

/-- The values of the flags behind the effect. -/
def Effect.apply (values : String → Bool) (e : Effect) : String → Bool :=
  assign values e.flags e.polarity.value

/-! ## Clauses as they are written -/

/-- The clause that the token is. -/
def Token.clause? : Token → Option Clause
  | guard (.clause c) => some c
  | _ => none

/-- Behind these tokens a negation waits for its clause: there is one behind the last clause. -/
def negationWaits (front : List Token) : Bool :=
  (front.rtakeWhile fun t => t.clause?.isNone).contains (.guard .negate)

/-- A clause, and whether it stands under a negation. -/
structure WrittenClause where
  /-- The clause itself. -/
  clause : Clause
  /-- A negation waits in front of it. -/
  negated : Bool
deriving DecidableEq, Repr

namespace WrittenClause

/-- The condition that the clause is. -/
def condition? (w : WrittenClause) : Option Condition :=
  match w.clause.kind with
  | .condition p => some ⟨if w.negated then p.negate else p, w.clause.flags⟩
  | .effect _ => none

/-- The effect that the clause is. -/
def effect? (w : WrittenClause) : Option Effect :=
  match w.clause.kind with
  | .condition _ => none
  | .effect p => some ⟨if w.negated then p.negate else p, w.clause.flags⟩

/-- What the clause asks of the flags: a condition what its name says, or the contrary under a
negation, and an effect nothing. -/
def holds (values : String → Bool) (w : WrittenClause) : Bool :=
  match w.clause.kind with
  | .condition p =>
    if w.negated then !p.holds values w.clause.flags else p.holds values w.clause.flags
  | .effect _ => true

/-- What the clause makes of the values: an effect sets its flags to what its name says, or to the
other value under a negation, and a condition changes nothing. -/
def apply (values : String → Bool) (w : WrittenClause) : String → Bool :=
  match w.clause.kind with
  | .condition _ => values
  | .effect p => assign values w.clause.flags (if w.negated then !p.value else p.value)

end WrittenClause

/-- The clauses among the tokens, in their order, where `front` stands before them. -/
def writtenBehind (front tokens : List Token) : List WrittenClause :=
  tokens.zipIdx.filterMap fun (t, i) =>
    t.clause?.map fun c => ⟨c, negationWaits (front ++ tokens.take i)⟩

/-- The clauses among the tokens, in their order. -/
def writtenClauses (tokens : List Token) : List WrittenClause := writtenBehind [] tokens

/-! ## One token -/

section Step

variable (front : List Token)

theorem negationWaits_negate : negationWaits (front ++ [.guard .negate]) = true := by
  rw [negationWaits, List.rtakeWhile_concat_pos _ _ _ rfl]
  simp

theorem negationWaits_clause (c : Clause) :
    negationWaits (front ++ [.guard (.clause c)]) = false := by
  rw [negationWaits, List.rtakeWhile_concat_neg _ _ _ (by simp [Token.clause?])]
  rfl

/-- A token that is no clause-shaped word leaves a negation waiting. -/
theorem negationWaits_of_guard?_eq_none {t : Token} (h : t.guard? = none) :
    negationWaits (front ++ [t]) = negationWaits front := by
  have hclause : t.clause?.isNone = true := by cases t <;> first | rfl | simp [Token.guard?] at h
  have hne : t ≠ .guard .negate := by
    rintro rfl
    exact absurd h (by simp [Token.guard?])
  have htake := List.rtakeWhile_concat_pos (fun t : Token => t.clause?.isNone) front t hclause
  rw [negationWaits, htake, negationWaits]
  simp [hne.symm]

theorem writtenBehind_cons (t : Token) (ts : List Token) :
    writtenBehind front (t :: ts) =
      (t.clause?.map fun c => ⟨c, negationWaits front⟩).toList ++ writtenBehind (front ++ [t]) ts := by
  rw [writtenBehind, List.zipIdx_cons', List.filterMap_cons, List.filterMap_map]
  have htail : (ts.zipIdx.filterMap fun (u, i) => u.clause?.map fun c =>
      (⟨c, negationWaits (front ++ (t :: ts).take (i + 1))⟩ : WrittenClause)) =
        writtenBehind (front ++ [t]) ts := by
    simp only [writtenBehind, List.take_succ_cons, List.append_assoc, List.singleton_append]
  cases hc : t.clause? with
  | none => simpa [hc, Function.comp_def] using htail
  | some c => simpa [hc, Function.comp_def] using htail

end Step

/-- What the reader makes of a clause at the front, in terms of the clause as it is written. -/
theorem WrittenClause.readGuards_cons (w : WrittenClause) (gs : List Guard) :
    readGuards w.negated (.clause w.clause :: gs) =
      ([w].filterMap condition? ++ (readGuards false gs).1,
        [w].filterMap effect? ++ (readGuards false gs).2) := by
  obtain ⟨⟨kind, flags⟩, negated⟩ := w
  cases kind <;> cases negated <;> rfl

/-- A negation in front of a clause reaches that clause, whatever is read on either side. -/
theorem readGuards_append_negated (c : Clause) (gs : List Guard) : ∀ (front : List Guard) (q : Bool),
    readGuards q (front ++ .negate :: .clause c :: gs) =
      ((readGuards q front).1 ++ ([⟨c, true⟩] : List WrittenClause).filterMap WrittenClause.condition? ++
          (readGuards false gs).1,
        (readGuards q front).2 ++ ([⟨c, true⟩] : List WrittenClause).filterMap WrittenClause.effect? ++
          (readGuards false gs).2)
  | [], q => WrittenClause.readGuards_cons ⟨c, true⟩ gs
  | .negate :: front, q => readGuards_append_negated c gs front true
  | .clause c' :: front, q => by
      rw [List.cons_append, WrittenClause.readGuards_cons ⟨c', q⟩,
        WrittenClause.readGuards_cons ⟨c', q⟩, readGuards_append_negated c gs front false]
      simp only [List.append_assoc]

/-! ## All tokens -/

/-- **The reader knows of each clause whether a negation waits.** Between any two tokens its flag
says what `negationWaits` says of the tokens in front. -/
theorem readGuards_behind (front tokens : List Token) :
    readGuards (negationWaits front) (tokens.filterMap Token.guard?) =
      ((writtenBehind front tokens).filterMap WrittenClause.condition?,
        (writtenBehind front tokens).filterMap WrittenClause.effect?) := by
  induction tokens generalizing front with
  | nil => rfl
  | cons t ts ih =>
    rw [writtenBehind_cons, List.filterMap_cons]
    cases hg : t.guard? with
    | none =>
      have hclause : t.clause? = none := by cases t <;> first | rfl | simp [Token.guard?] at hg
      have hrest := ih (front ++ [t])
      rw [negationWaits_of_guard?_eq_none front hg] at hrest
      simpa [hclause] using hrest
    | some g =>
      obtain rfl : t = .guard g := by cases t <;> simp_all [Token.guard?]
      cases g with
      | negate =>
        have hrest := ih (front ++ [.guard .negate])
        rw [negationWaits_negate] at hrest
        simpa [Token.clause?, readGuards] using hrest
      | clause c =>
        have hrest := ih (front ++ [.guard (.clause c)])
        rw [negationWaits_clause] at hrest
        have hstep := WrittenClause.readGuards_cons ⟨c, negationWaits front⟩
          (ts.filterMap Token.guard?)
        rw [hrest] at hstep
        simp only [Token.clause?, Option.map_some, Option.toList_some, List.filterMap_append]
        exact hstep

/-! ## Meaning -/

namespace WrittenClause

/-- A clause is one of both: a condition or an effect. -/
theorem length_add_length (ws : List WrittenClause) :
    (ws.filterMap condition?).length + (ws.filterMap effect?).length = ws.length := by
  induction ws with
  | nil => rfl
  | cons w ws ih =>
    obtain ⟨⟨kind, flags⟩, negated⟩ := w
    cases kind <;> simp only [List.filterMap_cons, condition?, effect?, List.length_cons] <;> omega

/-- The conditions of the clauses ask for what the clauses ask for. -/
theorem all_holds_filterMap (values : String → Bool) (ws : List WrittenClause) :
    (ws.filterMap condition?).all (Condition.holds values) = ws.all (holds values) := by
  induction ws with
  | nil => rfl
  | cons w ws ih =>
    obtain ⟨⟨kind, flags⟩, negated⟩ := w
    rw [List.all_cons, ← ih]
    cases kind with
    | effect p => rfl
    | condition p =>
      have hhead : Condition.holds values ⟨if negated then p.negate else p, flags⟩ =
          holds values ⟨⟨.condition p, flags⟩, negated⟩ := by
        cases negated
        · rfl
        · exact p.holds_negate values flags
      rw [← hhead]
      rfl

/-- The effects of the clauses make of the values what the clauses make of them. -/
theorem foldl_apply_filterMap (values : String → Bool) (ws : List WrittenClause) :
    (ws.filterMap effect?).foldl Effect.apply values = ws.foldl apply values := by
  induction ws generalizing values with
  | nil => rfl
  | cons w ws ih =>
    obtain ⟨⟨kind, flags⟩, negated⟩ := w
    rw [List.foldl_cons, ← ih]
    cases kind with
    | condition p => rfl
    | effect p =>
      have hhead : Effect.apply values ⟨if negated then p.negate else p, flags⟩ =
          apply values ⟨⟨.effect p, flags⟩, negated⟩ := by
        cases negated
        · rfl
        · exact congrArg (assign values flags) p.value_negate
      rw [← hhead]
      rfl

end WrittenClause

/-- No clause is left out. -/
theorem map_clause_writtenClauses (tokens : List Token) :
    (writtenClauses tokens).map WrittenClause.clause = tokens.filterMap Token.clause? := by
  rw [writtenClauses, writtenBehind, List.map_filterMap]
  have hfun : (fun p : Token × Nat => (p.1.clause?.map fun c =>
      (⟨c, negationWaits ([] ++ tokens.take p.2)⟩ : WrittenClause)).map WrittenClause.clause) =
        Token.clause? ∘ Prod.fst := by
    funext p
    rw [Option.map_map]
    exact Option.map_id_apply
  calc tokens.zipIdx.filterMap _ = tokens.zipIdx.filterMap (Token.clause? ∘ Prod.fst) := by
        exact congrArg (fun f => tokens.zipIdx.filterMap f) hfun
    _ = (tokens.zipIdx.map Prod.fst).filterMap Token.clause? := by rw [List.filterMap_map]
    _ = tokens.filterMap Token.clause? := by rw [List.zipIdx_map_fst]

/-- **Clauses mean what is written.** Of any tokens the reader makes one condition or one effect of
each clause and nothing else: with the flags of the clause, each in the order of the text, and
opposite where a negation waits. So all conditions hold where each clause holds as it is written,
or fails if it stands under a negation; and the effects, one after the other, leave what each clause
says, or the other value under a negation. -/
theorem readGuards_meaning (tokens : List Token) :
    let written := writtenClauses tokens
    let read := readGuards false (tokens.filterMap Token.guard?)
    (written.map WrittenClause.clause = tokens.filterMap Token.clause? ∧
      read.1.length + read.2.length = written.length ∧
      read.1 = written.filterMap WrittenClause.condition? ∧
      read.2 = written.filterMap WrittenClause.effect?) ∧
    ∀ values : String → Bool,
      read.1.all (Condition.holds values) = written.all (WrittenClause.holds values) ∧
      read.2.foldl Effect.apply values = written.foldl WrittenClause.apply values := by
  intro written read
  have hread : read = (written.filterMap WrittenClause.condition?,
      written.filterMap WrittenClause.effect?) := readGuards_behind [] tokens
  rw [hread]
  exact ⟨⟨map_clause_writtenClauses tokens, WrittenClause.length_add_length written, rfl, rfl⟩,
    fun values => ⟨WrittenClause.all_holds_filterMap values written,
      WrittenClause.foldl_apply_filterMap values written⟩⟩

/-- The negation passes a word that is no clause, and reaches one clause only. -/
example : readGuards false ([.guard .negate, .page "p", .guard (.clause ⟨.condition .anyTrue, ["a"]⟩),
    .guard (.clause ⟨.effect .setTrue, ["b"]⟩)].filterMap Token.guard?) =
      ([⟨.allFalse, ["a"]⟩], [⟨.setTrue, ["b"]⟩]) := rfl

end Gamebook
