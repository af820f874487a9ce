import Gamebook.Catalog.Reader
import Gamebook.Proofs.Json.RoundTrip
import Gamebook.Proofs.Text.Pieces
import Mathlib.Data.List.Forall2
import Mathlib.Logic.Relation

/-!
Gamebook.Proofs.Catalog.Outcome — what comes of reading a catalog.

A document is looked at three times. Each look goes over all of it before the next one starts, so an
entry without a name is reported even where an entry in front of it could not be decoded. The scan
for names finds the first entry without one (`entryNames_eq_error`) or pairs all entries with their
names (`entryNames_eq_ok`). Decoding then takes one item after the other, and keeps them in their
order (`mapM_eq_ok`).

`read_outcome` puts the three together. It is about messages, so it also needs that what is said
about the shape of a document is said about nothing else (`CatalogError.message_inj`).
-/

namespace Gamebook

open Text

/-! ## The first item with a property -/

/-- The item at this index is the first one with the property. -/
def IsFirst {α : Type} (P : α → Prop) (xs : List α) (n : Nat) : Prop :=
  (∃ x, xs[n]? = some x ∧ P x) ∧ ∀ x ∈ xs.take n, ¬ P x

section

variable {α : Type} {P : α → Prop} {x : α} {xs : List α} {m n : Nat}

theorem isFirst_cons_zero : IsFirst P (x :: xs) 0 ↔ P x := by
  simp [IsFirst]

theorem isFirst_cons_succ : IsFirst P (x :: xs) (n + 1) ↔ ¬ P x ∧ IsFirst P xs n := by
  simp only [IsFirst, List.getElem?_cons_succ, List.take_succ_cons, List.forall_mem_cons]
  tauto

theorem not_isFirst_nil : ¬ IsFirst P [] n := by
  simp [IsFirst]

/-- An item with the property is there if and only if there is a first one. -/
theorem exists_isFirst_iff : (∃ n, IsFirst P xs n) ↔ ∃ x ∈ xs, P x := by
  induction xs with
  | nil => simp [not_isFirst_nil]
  | cons x xs ih =>
    simp only [← Nat.or_exists_add_one, isFirst_cons_zero, isFirst_cons_succ, exists_and_left, ih,
      List.mem_cons, exists_eq_or_imp]
    tauto

theorem IsFirst.unique (hm : IsFirst P xs m) (hn : IsFirst P xs n) : m = n := by
  induction xs generalizing m n with
  | nil => exact absurd hm not_isFirst_nil
  | cons x xs ih =>
    cases m <;> cases n
    all_goals simp only [isFirst_cons_zero, isFirst_cons_succ] at hm hn
    case zero.zero => rfl
    case zero.succ => exact absurd hm hn.1
    case succ.zero => exact absurd hn hm.1
    case succ.succ => rw [ih hm.2 hn.2]

/-- The item that is found is the one at the first place with the property. -/
theorem find?_eq_some_iff_isFirst {β : Type} {q : β → Bool} {ys : List β} {y : β}
    (h : List.Forall₂ (fun x y => P x ↔ q y = true) xs ys) :
    ys.find? q = some y ↔ ∃ n, IsFirst P xs n ∧ ys[n]? = some y := by
  induction h with
  | nil => simp [not_isFirst_nil]
  | @cons x z xs ys hxz _ ih =>
    simp only [← Nat.or_exists_add_one, isFirst_cons_zero, isFirst_cons_succ, hxz, and_assoc,
      exists_and_left, List.getElem?_cons_zero, List.getElem?_cons_succ, ← ih, List.find?_cons]
    cases q z <;> simp

end

/-! ## Steps that may fail -/

section

variable {ε α β : Type}

theorem map_eq_error {f : α → β} {x : Except ε α} {e : ε} : x.map f = .error e ↔ x = .error e := by
  cases x <;> simp [Except.map]

theorem map_eq_ok {f : α → β} {x : Except ε α} {y : β} :
    x.map f = .ok y ↔ ∃ a, x = .ok a ∧ f a = y := by
  cases x <;> simp [Except.map]

theorem mapError_eq_ok {ε' : Type} {f : ε → ε'} {x : Except ε α} {a : α} :
    x.mapError f = .ok a ↔ x = .ok a := by
  cases x <;> simp [Except.mapError]

theorem bind_eq_ok {f : α → Except ε β} {x : Except ε α} {y : β} :
    x >>= f = .ok y ↔ ∃ a, x = .ok a ∧ f a = .ok y := by
  cases x <;> simp [bind, Except.bind]

/-- A walk over a list takes one item after the other. -/
theorem mapM_eq_ok {f : α → Except ε β} {xs : List α} {ys : List β} :
    xs.mapM f = .ok ys ↔ List.Forall₂ (fun x y => f x = .ok y) xs ys := by
  induction xs generalizing ys with
  | nil => cases ys <;> simp [pure, Except.pure]
  | cons x xs ih =>
    simp only [List.mapM_cons, bind_eq_ok, ih, pure, Except.pure, Except.ok.injEq,
      List.forall₂_cons_left_iff]
    constructor
    · rintro ⟨y, hy, zs, hzs, rfl⟩
      exact ⟨y, zs, hy, hzs, rfl⟩
    · rintro ⟨y, zs, hy, hzs, rfl⟩
      exact ⟨y, hy, zs, hzs, rfl⟩

end

/-- A walk over a list in two steps for each item is two walks, one behind the other. -/
theorem forall₂_comp_iff {α β γ : Type} {R : α → β → Prop} {S : β → γ → Prop} {xs : List α}
    {zs : List γ} :
    List.Forall₂ (Relation.Comp R S) xs zs ↔ ∃ ys, List.Forall₂ R xs ys ∧ List.Forall₂ S ys zs := by
  constructor
  · intro h
    induction h with
    | nil => exact ⟨[], .nil, .nil⟩
    | cons hac _ ih =>
      obtain ⟨b, hab, hbc⟩ := hac
      obtain ⟨ys, hR, hS⟩ := ih
      exact ⟨b :: ys, .cons hab hR, .cons hbc hS⟩
  · rintro ⟨ys, hR, hS⟩
    induction hR generalizing zs with
    | nil =>
      cases hS
      exact .nil
    | cons hab _ ih =>
      obtain _ | ⟨hbc, hS⟩ := hS
      exact .cons ⟨_, hab, hbc⟩ (ih hS)

/-! ## Names of entries -/

/-- The value is an object, and the last of its members called `name` is the string `name`. -/
def Json.IsNamed (name : String) (entry : Json) : Prop :=
  ∃ members, entry = .obj members ∧ lastMember? "name" members = some (.str name)

/-- The value is not an object with a string `name`. -/
def Json.IsUnnamed (entry : Json) : Prop := ∀ name, ¬ entry.IsNamed name

theorem Json.string?_eq_some {v : Json} {s : String} : v.string? = some s ↔ v = .str s := by
  cases v <;> simp [string?]

theorem entryName?_eq_some {entry : Json} {name : String} :
    entryName? entry = some name ↔ entry.IsNamed name := by
  unfold entryName? Json.IsNamed
  cases entry <;> simp [Json.field?, Option.bind_eq_some_iff, Json.string?_eq_some]

theorem Json.IsNamed.iff_eq {entry : Json} {name other : String} (h : entry.IsNamed name) :
    entry.IsNamed other ↔ name = other := by
  rw [← entryName?_eq_some] at h ⊢
  rw [h, Option.some.injEq]

theorem entryName?_eq_none {entry : Json} : entryName? entry = none ↔ entry.IsUnnamed := by
  simp only [Option.eq_none_iff_forall_ne_some, ne_eq, entryName?_eq_some, Json.IsUnnamed]

namespace Catalog

/-- The scan for names ends at the first entry without one. -/
theorem entryNames_eq_error {entries : List Json} {index : Nat} {e : CatalogError} :
    entryNames index entries = .error e ↔
      ∃ n, IsFirst Json.IsUnnamed entries n ∧ e = .missingName (index + n) := by
  induction entries generalizing index with
  | nil => simp [entryNames, not_isFirst_nil]
  | cons entry entries ih =>
    rw [entryNames, ← Nat.or_exists_add_one]
    simp only [isFirst_cons_zero, isFirst_cons_succ, ← entryName?_eq_none]
    cases hname : entryName? entry with
    | none => simp [eq_comm]
    | some name => simp [map_eq_error, ih, Nat.add_assoc, Nat.add_comm 1]

/-- **The scan for names** keeps all entries, with their names. -/
theorem entryNames_eq_ok {entries : List Json} {index : Nat} {named : List (String × Json)} :
    entryNames index entries = .ok named ↔
      List.Forall₂ (fun entry m => entry.IsNamed m.1 ∧ m.2 = entry) entries named := by
  induction entries generalizing index named with
  | nil => cases named <;> simp [entryNames]
  | cons entry entries ih =>
    rw [entryNames, List.forall₂_cons_left_iff]
    simp only [← @entryName?_eq_some entry]
    cases hname : entryName? entry with
    | none => simp
    | some name =>
      simp only [map_eq_ok, ih, Option.some.injEq]
      constructor
      · rintro ⟨ms, hms, rfl⟩
        exact ⟨_, _, ⟨rfl, rfl⟩, hms, rfl⟩
      · rintro ⟨_, ms, ⟨rfl, rfl⟩, hms, rfl⟩
        exact ⟨ms, hms, rfl⟩

end Catalog

/-! ## Decoding -/

/-- What an item of `args` stands for. An item that is a list has its name in the first place. -/
structure Parameter.DecodedFrom (item : Json) (p : Parameter) : Prop where
  /-- The item is decoded on its own. -/
  decoded : decodeParameter item = .ok p
  /-- The name is the item's. -/
  named : item.IsNamed p.name ∨ ∃ rest, item = .arr (.str p.name :: rest)

/-- What an entry stands for: its name, and one parameter for each item of its `args`, in their
order. -/
structure CatalogEntry.DecodedFrom (entry : Json) (e : CatalogEntry) : Prop where
  /-- The name is the entry's. -/
  named : entry.IsNamed e.name
  /-- Without `args` there are no parameters. -/
  parameters : (entry.field? "args" = none ∧ e.parameters = []) ∨
    ∃ items, entry.field? "args" = some (.arr items) ∧
      List.Forall₂ Parameter.DecodedFrom items e.parameters

theorem decodeString_eq_ok {v : Json} {s : String} : decodeString v = .ok s ↔ v = .str s := by
  cases v <;> simp [decodeString]

theorem named_of_decodeParameter {item : Json} {p : Parameter} (h : decodeParameter item = .ok p) :
    item.IsNamed p.name ∨ ∃ rest, item = .arr (.str p.name :: rest) := by
  cases item with
  | obj members =>
    left
    simp only [decodeParameter, decodeParameterFields, bind_eq_ok] at h
    obtain ⟨name?, hname, _, -, _, -, _, -, h⟩ := h
    cases name? with
    | none => simp at h
    | some name =>
      obtain rfl := Except.ok.inj h
      refine ⟨members, rfl, ?_⟩
      cases hfield : Json.lastMember? "name" members with
      | none => simp [hfield, decodeOr] at hname
      | some v =>
        rw [hfield] at hname
        obtain ⟨s, hs, hsome⟩ := map_eq_ok.1 hname
        rw [← Option.some.inj hsome, decodeString_eq_ok.1 hs]
  | arr items =>
    right
    cases items with
    | nil => simp [decodeParameter, decodeParameterItems] at h
    | cons v rest =>
      simp only [decodeParameter, decodeParameterItems, bind_eq_ok, decodeString_eq_ok] at h
      obtain ⟨name, rfl, _, -, _, -, _, -, h⟩ := h
      split at h
      · obtain rfl := Except.ok.inj h
        exact ⟨rest, rfl⟩
      · simp at h
  | _ => simp [decodeParameter] at h

theorem name_of_decodeEntry {entry : Json} {name : String} {e : CatalogEntry}
    (h : decodeEntry name entry = .ok e) : e.name = name := by
  obtain ⟨_, -, h⟩ := bind_eq_ok.1 h
  rw [← Except.ok.inj h]

/-- **An entry is decoded** to its name and its parameters. -/
theorem decodedFrom_of_decodeEntry {entry : Json} {name : String} {e : CatalogEntry}
    (hname : entry.IsNamed name) (h : decodeEntry name entry = .ok e) : e.DecodedFrom entry := by
  obtain ⟨parameters, hparameters, h⟩ := bind_eq_ok.1 h
  obtain rfl := Except.ok.inj h
  refine ⟨hname, ?_⟩
  cases hargs : entry.field? "args" with
  | none =>
    rw [hargs] at hparameters
    exact .inl ⟨rfl, (Except.ok.inj hparameters).symm⟩
  | some v =>
    rw [hargs, decodeOr] at hparameters
    cases v with
    | arr items =>
      refine .inr ⟨items, rfl, (mapM_eq_ok.1 hparameters).imp fun item p hp => ?_⟩
      exact ⟨hp, named_of_decodeParameter hp⟩
    | _ => simp [decodeList] at hparameters

namespace Catalog

theorem ofJson_eq_notArray {root : Json} (h : ∀ entries, root ≠ .arr entries) :
    ofJson root = .error .notArray := by
  cases root with
  | arr entries => exact absurd rfl (h entries)
  | _ => rfl

/-- **A list is a catalog** if and only if each entry has a name and can be decoded. -/
theorem ofJson_eq_ok {entries : List Json} {c : Catalog} :
    ofJson (.arr entries) = .ok c ↔
      List.Forall₂ (fun entry e => entry.IsNamed e.name ∧ decodeEntry e.name entry = .ok e)
        entries c.entries := by
  have hsteps : ofJson (.arr entries) = .ok c ↔ ∃ named, entryNames 0 entries = .ok named ∧
      (named.mapM fun m => decodeEntry m.1 m.2) = .ok c.entries := by
    simp only [ofJson, bind_eq_ok, mapError_eq_ok, Except.ok.injEq]
    refine exists_congr fun named => and_congr_right fun _ => ⟨?_, fun h => ⟨_, h, rfl⟩⟩
    rintro ⟨es, hes, rfl⟩
    exact hes
  rw [hsteps]
  simp only [entryNames_eq_ok, mapM_eq_ok, ← forall₂_comp_iff]
  constructor
  · refine fun h => h.imp ?_
    rintro entry e ⟨⟨name, _⟩, ⟨hname, rfl⟩, he⟩
    obtain rfl := name_of_decodeEntry he
    exact ⟨hname, he⟩
  · exact fun h => h.imp fun entry e he => ⟨(e.name, entry), ⟨he.1, rfl⟩, he.2⟩

/-- **What comes of a list.** If some entry has no name, it is the first of them that is reported.
Otherwise a value cannot be decoded, or all entries are. -/
theorem ofJson_arr (entries : List Json) :
    (∃ n, IsFirst Json.IsUnnamed entries n ∧ ofJson (.arr entries) = .error (.missingName n)) ∨
      (¬ ∃ entry ∈ entries, entry.IsUnnamed) ∧
        ((∃ e, ofJson (.arr entries) = .error (.badData e)) ∨
          ∃ c, ofJson (.arr entries) = .ok c ∧
            List.Forall₂ CatalogEntry.DecodedFrom entries c.entries) := by
  cases hnames : entryNames 0 entries with
  | error e =>
    obtain ⟨n, hfirst, rfl⟩ := entryNames_eq_error.1 hnames
    refine .inl ⟨n, hfirst, ?_⟩
    rw [Nat.zero_add] at hnames
    simp [ofJson, hnames, bind, Except.bind]
  | ok named =>
    refine .inr ⟨fun hunnamed => ?_, ?_⟩
    · obtain ⟨n, hfirst⟩ := exists_isFirst_iff.2 hunnamed
      rw [entryNames_eq_error.2 ⟨n, hfirst, rfl⟩] at hnames
      simp at hnames
    · cases hdecoded : named.mapM fun m => decodeEntry m.1 m.2 with
      | error e =>
        exact .inl ⟨e, by simp [ofJson, hnames, hdecoded, bind, Except.bind, Except.mapError]⟩
      | ok es =>
        have hc : ofJson (.arr entries) = .ok ⟨es⟩ := by
          simp [ofJson, hnames, hdecoded, bind, Except.bind, Except.mapError]
        exact .inr ⟨_, hc,
          (ofJson_eq_ok.1 hc).imp fun _ _ he => decodedFrom_of_decodeEntry he.1 he.2⟩

/-- The command that a name stands for is that of the first entry with this name. -/
theorem get?_eq_some_iff {entries : List Json} {c : Catalog} {name : String} {e : CatalogEntry}
    (h : List.Forall₂ CatalogEntry.DecodedFrom entries c.entries) :
    c.get? name = some e ↔ ∃ n, IsFirst (Json.IsNamed name) entries n ∧ c.entries[n]? = some e :=
  find?_eq_some_iff_isFirst
    (h.imp fun _ _ hentry => by rw [hentry.named.iff_eq, decide_eq_true_eq, eq_comm])

end Catalog

/-! ## Messages -/

/-- The error is about the shape of a document: no list, or an entry without a name. -/
def CatalogError.isShape : CatalogError → Bool
  | notArray | missingName _ => true
  | _ => false

theorem DecodeError.head?_message_ne (e : DecodeError) : e.message.toList.head? ≠ some 'c' := by
  intro h
  have hother : ∀ d ≠ 'c', e.message.toList.head? ≠ some d := fun d hd hd' =>
    hd (Option.some.inj (hd'.symm.trans h))
  cases e with
  | invalidType found wanted =>
    exact hother 'i' (by decide)
      (head?_toList_append (head?_toList_append (head?_toList_append (head?_literal _ _))))
  | missingName => exact hother 'm' (by decide) (head?_literal _ _)
  | duplicateRequired => exact hother 'd' (by decide) (head?_literal _ _)
  | longParameter count =>
    exact hother 'i' (by decide) (head?_toList_append (head?_toList_append (head?_literal _ _)))
  | emptyParameter => exact hother 'i' (by decide) (head?_literal _ _)
  | notSingleKey => exact hother 'i' (by decide) (head?_literal _ _)

namespace CatalogError

theorem head?_message {e : CatalogError} (h : e.isShape = true) :
    e.message.toList.head? = some 'c' := by
  cases e with
  | notArray => exact head?_literal _ _
  | missingName n => exact head?_toList_append (head?_toList_append (head?_literal _ _))
  | _ => simp [isShape] at h

theorem message_notArray_ne (n : Nat) : notArray.message ≠ (missingName n).message := by
  intro h
  have hsecond := congrArg (fun s : String => s.toList[1]?) h
  simp [message] at hsecond

theorem message_missingName_inj {m n : Nat}
    (h : (missingName m).message = (missingName n).message) : m = n := by
  have hdigits : Nat.toDigits 10 m = Nat.toDigits 10 n := by
    simpa [message, Nat.toString_eq_ofList_toDigits, ← String.toList_inj] using h
  rw [← @Nat.ofDigitChars_ten_toDigits m, hdigits, Nat.ofDigitChars_ten_toDigits]

/-- **What is said** about the shape of a document is said about nothing else in it. -/
theorem message_inj {e e' : CatalogError} (he : e.isShape = true) (he' : ∀ s, e' ≠ .notJson s) :
    e'.message = e.message ↔ e' = e := by
  refine ⟨fun h => ?_, fun h => by rw [h]⟩
  cases e' with
  | notJson s => exact absurd rfl (he' s)
  | notArray =>
    cases e with
    | notArray => rfl
    | missingName n => exact absurd h (message_notArray_ne n)
    | _ => simp [isShape] at he
  | missingName m =>
    cases e with
    | notArray => exact absurd h.symm (message_notArray_ne m)
    | missingName n => rw [message_missingName_inj h]
    | _ => simp [isShape] at he
  | badData d =>
    have hhead := head?_message he
    rw [← h] at hhead
    exact absurd hhead d.head?_message_ne

end CatalogError

/-! ## Reading -/

namespace Catalog

theorem ofJson_ne_notJson {root : Json} (s : Json.SyntaxError) :
    ofJson root ≠ .error (.notJson s) := by
  by_cases hroot : ∃ entries, root = .arr entries
  · obtain ⟨entries, rfl⟩ := hroot
    obtain ⟨n, -, h⟩ | ⟨-, ⟨e, h⟩ | ⟨c, h, -⟩⟩ := ofJson_arr entries <;> simp [h]
  · simp [ofJson_eq_notArray (not_exists.1 hroot)]

/-- The text is no catalog, and this is said about it. -/
def FailsWith (text message : String) : Prop := ∃ e, read text = .error e ∧ e.message = message

theorem read_eq_ofJson {text : String} {root : Json} (h : Json.read text = .ok root) :
    read text = ofJson root := by
  rw [read, h]
  rfl

theorem failsWith_message {text : String} {root : Json} (h : Json.read text = .ok root)
    {e : CatalogError} (he : e.isShape = true) :
    FailsWith text e.message ↔ ofJson root = .error e := by
  rw [FailsWith, read_eq_ofJson h]
  constructor
  · rintro ⟨e', hroot, hmessage⟩
    have he' : ∀ s, e' ≠ .notJson s := fun s hs => ofJson_ne_notJson s (hs ▸ hroot)
    rw [hroot, (CatalogError.message_inj he he').1 hmessage]
  · exact fun hroot => ⟨e, hroot, rfl⟩

theorem failsWith_notArray {text : String} {root : Json} (h : Json.read text = .ok root) :
    FailsWith text "catalog must be a JSON array of commands" ↔ ∀ entries, root ≠ .arr entries := by
  refine (failsWith_message (e := .notArray) h rfl).trans ⟨?_, ofJson_eq_notArray⟩
  rintro hroot entries rfl
  obtain ⟨n, -, h⟩ | ⟨-, ⟨e, h⟩ | ⟨c, h, -⟩⟩ := ofJson_arr entries <;> simp [h] at hroot

theorem failsWith_missingName {text : String} {entries : List Json}
    (h : Json.read text = .ok (.arr entries)) (n : Nat) :
    FailsWith text ("command " ++ toString n ++ " missing `name` field") ↔
      IsFirst Json.IsUnnamed entries n := by
  refine (failsWith_message (e := .missingName n) h rfl).trans ?_
  obtain ⟨m, hfirst, hm⟩ | ⟨hnamed, hm⟩ := ofJson_arr entries
  · rw [hm, Except.error.injEq, CatalogError.missingName.injEq]
    exact ⟨fun hmn => hmn ▸ hfirst, fun hn => hfirst.unique hn⟩
  · refine iff_of_false ?_ fun hn => hnamed (exists_isFirst_iff.1 ⟨n, hn⟩)
    obtain ⟨e, h⟩ | ⟨c, h, -⟩ := hm <;> simp [h]

/-- **What comes of reading a catalog.** A document that is no list is reported as such. In a list,
the first entry without a name is reported, whatever stands in front of it. Otherwise a value cannot
be decoded, or there is one command for each entry, in the order of the entries, and a name stands
for the command of the first entry that has it. -/
theorem read_outcome {text : String} {root : Json} (h : Json.read text = .ok root) :
    (FailsWith text "catalog must be a JSON array of commands" ↔ ∀ entries, root ≠ .arr entries) ∧
    ∀ entries, root = .arr entries →
      (∀ n, FailsWith text ("command " ++ toString n ++ " missing `name` field") ↔
        IsFirst Json.IsUnnamed entries n) ∧
      ((∃ n : Nat, FailsWith text ("command " ++ toString n ++ " missing `name` field")) ↔
        ∃ entry ∈ entries, entry.IsUnnamed) ∧
      ((¬ ∃ entry ∈ entries, entry.IsUnnamed) →
        (∃ e, read text = .error (.badData e)) ∨
        ∃ c, read text = .ok c ∧ List.Forall₂ CatalogEntry.DecodedFrom entries c.entries ∧
          ∀ name e, c.get? name = some e ↔
            ∃ n, IsFirst (Json.IsNamed name) entries n ∧ c.entries[n]? = some e) := by
  refine ⟨failsWith_notArray h, ?_⟩
  rintro entries rfl
  refine ⟨failsWith_missingName h, ?_, fun hnamed => ?_⟩
  · rw [← exists_isFirst_iff]
    exact exists_congr (failsWith_missingName h)
  · rw [read_eq_ofJson h]
    obtain ⟨n, hfirst, -⟩ | ⟨-, hbad | ⟨c, hc, hentries⟩⟩ := ofJson_arr entries
    · exact absurd (exists_isFirst_iff.1 ⟨n, hfirst⟩) hnamed
    · exact .inl hbad
    · exact .inr ⟨c, hc, hentries, fun name e => get?_eq_some_iff hentries⟩

/-- Entries of which the first cannot be decoded, and the other two have no name. -/
def namelessEntries : List Json :=
  [.obj [("name", .str "RING"), ("args", .bool true)], .obj [("name", .null)], .str "RING"]

/-- Two entries of one name, the second one with a parameter. -/
def repeatedEntries : List Json :=
  [.obj [("name", .str "RING")],
    .obj [("args", .arr [.obj [("name", .str "times")]]), ("name", .str "RING")]]

theorem read_namelessEntries :
    Json.read (Json.document (.arr namelessEntries)) = .ok (.arr namelessEntries) := by
  refine Json.read_document (.arr fun v hv => ?_)
  simp only [namelessEntries, List.mem_cons, List.not_mem_nil, or_false] at hv
  obtain rfl | rfl | rfl := hv
  · exact .obj (by simp [Json.Plain.str, Json.Plain.bool])
  · exact .obj (by simp [Json.Plain.null])
  · exact .str _

theorem read_repeatedEntries :
    Json.read (Json.document (.arr repeatedEntries)) = .ok (.arr repeatedEntries) := by
  have hitem : Json.Plain Json.Number.Fits 124 (.obj [("name", .str "times")]) :=
    .obj (by simp [Json.Plain.str])
  refine Json.read_document (.arr fun v hv => ?_)
  simp only [repeatedEntries, List.mem_cons, List.not_mem_nil, or_false] at hv
  obtain rfl | rfl := hv
  · exact .obj (by simp [Json.Plain.str])
  · exact .obj (List.forall_mem_cons.2 ⟨.arr (by simpa using hitem), by simp [Json.Plain.str]⟩)

/-- The second entry is reported though the first one is bad too, and of two entries with one name
the first one counts. -/
theorem read_outcome_entries :
    (Json.read (Json.document (.arr namelessEntries)) = .ok (.arr namelessEntries) ∧
      FailsWith (Json.document (.arr namelessEntries)) "command 1 missing `name` field") ∧
    Json.read (Json.document (.arr repeatedEntries)) = .ok (.arr repeatedEntries) ∧
      ∃ c, read (Json.document (.arr repeatedEntries)) = .ok c ∧ c.entries.length = 2 ∧
        c.get? "RING" = some ⟨"RING", []⟩ := by
  have hfirst : IsFirst Json.IsUnnamed namelessEntries 1 := by
    refine ⟨⟨_, rfl, entryName?_eq_none.1 rfl⟩, ?_⟩
    simp only [namelessEntries, List.take_succ_cons, List.take_zero, List.forall_mem_singleton,
      ← entryName?_eq_none]
    decide
  have hnamed : ¬ ∃ entry ∈ repeatedEntries, entry.IsUnnamed := by
    simp only [repeatedEntries, List.mem_cons, List.not_mem_nil, or_false, exists_eq_or_imp,
      exists_eq_left, ← entryName?_eq_none]
    decide
  have hdecoded : read (Json.document (.arr repeatedEntries)) =
      .ok ⟨[⟨"RING", []⟩, ⟨"RING", [⟨"times", .other, false, []⟩]⟩]⟩ := by
    rw [read_eq_ofJson read_repeatedEntries]
    rfl
  refine ⟨⟨read_namelessEntries, (((read_outcome read_namelessEntries).2 _ rfl).1 1).2 hfirst⟩,
    read_repeatedEntries, ?_⟩
  obtain ⟨e, hbad⟩ | ⟨c, hc, hentries, hget⟩ :=
    ((read_outcome read_repeatedEntries).2 _ rfl).2.2 hnamed
  · simp [hdecoded] at hbad
  · refine ⟨c, hc, hentries.length_eq.symm, (hget _ _).2 ⟨0, ⟨⟨_, rfl, ?_⟩, by simp⟩, ?_⟩⟩
    · exact entryName?_eq_some.1 rfl
    · obtain rfl := Except.ok.inj (hdecoded.symm.trans hc)
      rfl

end Catalog

end Gamebook
