import Gamebook.Proofs.Json.RoundTrip

/-!
Gamebook.Proofs.Json.Injective — different values are written differently.

Reading cannot show this of all whole numbers, since a number beyond 64 bits is read as a double.
But the text of a value tells where the value ends and what it is: its first character says of what
shape it is (`Shape.ofLead`), and behind each piece of a block stands a comma or a new line. So the
text of a value can be cut off in one way only (`Plain.determines`), by induction on the value.
-/

namespace Gamebook.Json

/-! ## Shapes -/

/-- What kind of value stands somewhere, without its contents. -/
inductive Shape where
  /-- The null value. -/
  | null
  /-- A truth value. -/
  | truth (b : Bool)
  /-- A number. -/
  | number
  /-- A string. -/
  | string
  /-- A list. -/
  | list
  /-- An object. -/
  | object
deriving DecidableEq, Repr

/-- The shape of a value. -/
def shape : Json → Shape
  | null => .null
  | bool b => .truth b
  | num _ => .number
  | str _ => .string
  | arr _ => .list
  | obj _ => .object

/-- The shape of a value that starts with this character. -/
def Shape.ofLead (c : Char) : Shape :=
  if c = 'n' then null
  else if c = 't' then truth true
  else if c = 'f' then truth false
  else if c = '"' then string
  else if c = '[' then list
  else if c = '\x7b' then object
  else number

theorem Shape.ofLead_of_isDigit {c : Char} (hc : c.isDigit = true) : ofLead c = number := by
  have hne := @Number.ne_of_isDigit c hc
  simp [ofLead, hne 'n' rfl, hne 't' rfl, hne 'f' rfl, hne '"' rfl, hne '[' rfl, hne '\x7b' rfl]

/-- The first character of a value tells its shape. -/
theorem Plain.exists_lead {ok : Nat → Prop} {depth : Nat} {v : Json} (h : Plain ok depth v)
    (indent : Nat) : ∃ c t, valueText indent v = c :: t ∧ Shape.ofLead c = v.shape := by
  cases h with
  | null => exact ⟨_, _, by rw [valueText], rfl⟩
  | bool b => cases b <;> exact ⟨_, _, by rw [valueText], rfl⟩
  | @nat _ n _ =>
    obtain ⟨c, ds, hds, hc⟩ := Number.exists_digit_toDigits n
    exact ⟨c, ds, by rw [valueText]; exact hds, Shape.ofLead_of_isDigit hc⟩
  | str s => exact ⟨_, _, by rw [valueText]; rfl, rfl⟩
  | arr _ => exact ⟨_, _, by rw [valueText, block_eq], rfl⟩
  | obj _ => exact ⟨_, _, by rw [valueText, block_eq], rfl⟩

/-- Values whose texts start alike have the same shape. -/
theorem Plain.shape_eq {ok ok' : Nat → Prop} {depth depth' indent : Nat} {v w : Json}
    {r s : List Char} (hv : Plain ok depth v) (hw : Plain ok' depth' w)
    (h : valueText indent v ++ r = valueText indent w ++ s) : v.shape = w.shape := by
  obtain ⟨c, t, htext, hc⟩ := hv.exists_lead indent
  obtain ⟨d, u, htext', hd⟩ := hw.exists_lead indent
  rw [htext, htext'] at h
  rw [← hc, ← hd, (List.cons.inj h).1]

/-! ## Pieces between brackets -/

/-- Wherever a value may end, the text of `v` can be told from the text of every `w` with `P`. -/
def Determines {α : Type} (text : α → List Char) (P : α → Prop) (v : α) : Prop :=
  ∀ w, P w → ∀ r s, EndsValue r → EndsValue s → text v ++ r = text w ++ s → v = w ∧ r = s

section Blocks

variable {α : Type} {text : α → List Char} {P : α → Prop} {closing : Char} {indent : Nat}
  {r s : List Char}

/-- What stands behind a piece can be cut off in one way only. -/
theorem behind_append_inj : ∀ {vs ws : List α}, (∀ v ∈ vs, Determines text P v) → (∀ w ∈ ws, P w) →
    behind closing indent (vs.map text) ++ r = behind closing indent (ws.map text) ++ s →
      vs = ws ∧ r = s
  | [], [], _, _, h => ⟨rfl, List.append_cancel_left h⟩
  | [], w :: ws, _, _, h => by
      rw [List.map_cons, behind_cons] at h
      exact absurd (List.cons.inj h).1 (by decide)
  | v :: vs, [], _, _, h => by
      rw [List.map_cons, behind_cons] at h
      exact absurd (List.cons.inj h).1 (by decide)
  | v :: vs, w :: ws, hv, hw, h => by
      simp only [List.map_cons, behind_cons, List.cons_append, List.append_assoc] at h
      obtain ⟨rfl, hrest⟩ := hv v List.mem_cons_self w (hw w List.mem_cons_self) _ _
        (endsValue_behind closing indent _ r) (endsValue_behind closing indent _ s)
        (List.append_cancel_left (List.cons.inj h).2)
      obtain ⟨rfl, hr⟩ := behind_append_inj (fun x hx => hv x (List.mem_cons_of_mem v hx))
        (fun x hx => hw x (List.mem_cons_of_mem v hx)) hrest
      exact ⟨rfl, hr⟩

/-- What stands inside brackets can be cut off in one way only. -/
theorem inside_append_inj (hclosing : closing ≠ '\n') {vs ws : List α}
    (hv : ∀ v ∈ vs, Determines text P v) (hw : ∀ w ∈ ws, P w)
    (h : inside closing indent (vs.map text) ++ r = inside closing indent (ws.map text) ++ s) :
    vs = ws ∧ r = s := by
  cases vs with
  | nil =>
    cases ws with
    | nil => exact ⟨rfl, (List.cons.inj h).2⟩
    | cons w ws => exact absurd (List.cons.inj h).1 hclosing
  | cons v vs =>
    cases ws with
    | nil => exact absurd (List.cons.inj h).1.symm hclosing
    | cons w ws =>
      simp only [List.map_cons, inside, List.append_assoc] at h
      obtain ⟨rfl, hrest⟩ := hv v List.mem_cons_self w (hw w List.mem_cons_self) _ _
        (endsValue_behind closing indent _ r) (endsValue_behind closing indent _ s)
        (List.append_cancel_left h)
      obtain ⟨rfl, hr⟩ := behind_append_inj (fun x hx => hv x (List.mem_cons_of_mem v hx))
        (fun x hx => hw x (List.mem_cons_of_mem v hx)) hrest
      exact ⟨rfl, hr⟩

end Blocks

/-! ## Values and documents -/

/-- The value is plain, however deep it is and however great its numbers are. -/
def IsPlain (v : Json) : Prop := ∃ depth, Plain (fun _ => True) depth v

/-- Members are told apart by their keys and by their values. -/
theorem determines_memberText {indent : Nat} {m : String × Json}
    (h : Determines (valueText indent) IsPlain m.2) :
    Determines (memberText indent) (fun n => IsPlain n.2) m := by
  intro n hn r s hr hs htext
  simp only [memberText, List.append_assoc, List.cons_append] at htext
  obtain ⟨hkey, htext⟩ := stringText_append_inj htext
  obtain ⟨hvalue, hrest⟩ := h n.2 hn r s hr hs (List.cons.inj (List.cons.inj htext).2).2
  exact ⟨Prod.ext hkey hvalue, hrest⟩

/-- **The text of a value can be cut off in one way only.** -/
theorem Plain.determines {ok : Nat → Prop} {depth : Nat} {v : Json} (h : Plain ok depth v) :
    ∀ indent, Determines (valueText indent) IsPlain v := by
  induction h with
  | @null depth =>
    rintro indent w ⟨e, hw⟩ r s _ _ htext
    have hshape := (@Plain.null ok depth).shape_eq hw htext
    cases hw with
    | null => exact ⟨rfl, List.append_cancel_left htext⟩
    | _ => cases hshape
  | @bool depth b =>
    rintro indent w ⟨e, hw⟩ r s _ _ htext
    have hshape := (@Plain.bool ok depth b).shape_eq hw htext
    cases hw with
    | bool b' =>
      cases hshape
      exact ⟨rfl, List.append_cancel_left htext⟩
    | _ => cases hshape
  | @nat depth n hn =>
    rintro indent w ⟨e, hw⟩ r s hr hs htext
    have hshape := (@Plain.nat ok depth n hn).shape_eq hw htext
    cases hw with
    | nat =>
      rw [valueText, valueText] at htext
      obtain ⟨rfl, hrest⟩ := Number.toDigits_append_inj hr hs htext
      exact ⟨rfl, hrest⟩
    | _ => cases hshape
  | @str depth t =>
    rintro indent w ⟨e, hw⟩ r s _ _ htext
    have hshape := (@Plain.str ok depth t).shape_eq hw htext
    cases hw with
    | str =>
      rw [valueText, valueText] at htext
      obtain ⟨rfl, hrest⟩ := stringText_append_inj htext
      exact ⟨rfl, hrest⟩
    | _ => cases hshape
  | arr hitems ih =>
    rintro indent w ⟨e, hw⟩ r s _ _ htext
    have hshape := (Plain.arr hitems).shape_eq hw htext
    cases hw with
    | arr hitems' =>
      simp only [valueText, itemTexts_eq_map, block_eq, List.cons_append] at htext
      obtain ⟨rfl, hrest⟩ := inside_append_inj (by decide) (fun v hv => ih v hv (indent + 1))
        (fun v hv => ⟨_, hitems' v hv⟩) (List.cons.inj htext).2
      exact ⟨rfl, hrest⟩
    | _ => cases hshape
  | obj hmembers ih =>
    rintro indent w ⟨e, hw⟩ r s _ _ htext
    have hshape := (Plain.obj hmembers).shape_eq hw htext
    cases hw with
    | obj hmembers' =>
      simp only [valueText, memberTexts_eq_map, block_eq, List.cons_append] at htext
      obtain ⟨rfl, hrest⟩ := inside_append_inj (by decide)
        (fun m hm => determines_memberText (ih m hm (indent + 1)))
        (fun m hm => ⟨_, hmembers' m hm⟩) (List.cons.inj htext).2
      exact ⟨rfl, hrest⟩
    | _ => cases hshape

/-- **Different values have different documents.** -/
theorem document_inj {v w : Json} (hv : IsPlain v) (hw : IsPlain w) (h : document v = document w) :
    v = w := by
  obtain ⟨depth, hv⟩ := hv
  exact (hv.determines 0 w hw _ _ endsValue_newline endsValue_newline
    (String.ofList_injective h)).1

end Gamebook.Json
