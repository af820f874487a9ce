import Gamebook.Catalog.Printer
import Gamebook.Proofs.Catalog.Outcome

/-!
Gamebook.Proofs.Catalog.Spelling — the values that stand for a catalog.

An engine need not write every field, and it may write fields of its own. `Catalog.WrittenAs` says
which values stand for a catalog: a field that has its default value may be left out, `required` may
be called `require`, a kind that asks for nothing may have any name that no other kind has, and an
object may hold strings under keys that mean nothing. The value that is printed is one of these
(`Catalog.writtenAs_json`).

The fields of an object are looked up by their keys, so each is decoded whatever stands around it:
members under keys that mean nothing do not count (`Json.lastMember?_filter`), and of the others no
two have one key. `read_writtenAs` is the result: what stands for a catalog is read as the catalog.
-/

namespace Gamebook

namespace Json

/-! ## Members -/

theorem lastMember?_append (key : String) (ms ns : List (String × Json)) :
    lastMember? key (ms ++ ns) = (lastMember? key ns).or (lastMember? key ms) := by
  rw [lastMember?, List.reverse_append, List.find?_append, Option.map_or]
  rfl

theorem lastMember?_singleton (key other : String) (v : Json) :
    lastMember? key [(other, v)] = if other = key then some v else none := by
  unfold lastMember?
  split <;> simp_all

/-- Members under other keys count for nothing. -/
theorem lastMember?_filter {key : String} {keys : List String} (h : key ∈ keys)
    (ms : List (String × Json)) :
    lastMember? key (ms.filter fun m => m.1 ∈ keys) = lastMember? key ms := by
  rw [lastMember?, lastMember?, ← List.filter_reverse, List.find?_filter]
  congr 2
  funext m
  simp only [decide_eq_true_eq, decide_eq_decide, and_iff_right_iff_imp]
  rintro rfl
  exact h

/-- The members are those in `known`, in this order, and between them strings under keys that are
not in `keys`. -/
structure Extends (keys : List String) (known members : List (String × Json)) : Prop where
  /-- The other members apart, these are left. -/
  filter_eq : (members.filter fun m => m.1 ∈ keys) = known
  /-- The other members are strings. -/
  isString : ∀ m ∈ members, m.1 ∉ keys → ∃ s, m.2 = .str s

theorem Extends.lastMember?_eq {keys : List String} {known members : List (String × Json)}
    (h : Extends keys known members) {key : String} (hkey : key ∈ keys) :
    lastMember? key members = lastMember? key known := by
  rw [← h.filter_eq, lastMember?_filter hkey]

theorem Extends.refl {keys : List String} {known : List (String × Json)}
    (h : ∀ m ∈ known, m.1 ∈ keys) : Extends keys known known :=
  ⟨List.filter_eq_self.2 fun m hm => decide_eq_true (h m hm), fun m hm hkey => absurd (h m hm) hkey⟩

/-- A list under a key; the member may be left out if the list is empty. -/
inductive ListAs (key : String) : List Json → List (String × Json) → Prop
  /-- The list. -/
  | given (items : List Json) : ListAs key items [(key, .arr items)]
  /-- No member for an empty list. -/
  | missing : ListAs key [] []

end Json

/-! ## What stands for a catalog -/

/-- What stands for the kind of a parameter. -/
inductive ParameterKind.WrittenAs : ParameterKind → List (String × Json) → Prop
  /-- Its name. -/
  | tag (kind : ParameterKind) : WrittenAs kind [("type", .str kind.tag)]
  /-- A name that no kind has. -/
  | unknown {name : String} (h : name ∉ [text, flag, page].map tag) :
      WrittenAs other [("type", .str name)]
  /-- No member for a kind that asks for nothing. -/
  | missing : WrittenAs other []

/-- What says whether an argument must be given. -/
inductive Parameter.RequiredAs : Bool → List (String × Json) → Prop
  /-- The key that is printed. -/
  | long (b : Bool) : RequiredAs b [("required", .bool b)]
  /-- Its other spelling. -/
  | short (b : Bool) : RequiredAs b [("require", .bool b)]
  /-- No member for an argument that may be left out. -/
  | missing : RequiredAs false []

/-- The keys that mean something in a parameter. -/
def Parameter.keys : List String := ["name", "type", "require", "required", "presets"]

/-- What stands for a parameter. -/
inductive Parameter.WrittenAs (p : Parameter) : Json → Prop
  /-- An object with its fields. -/
  | intro {kind required presets members : List (String × Json)} (hkind : p.kind.WrittenAs kind)
      (hrequired : RequiredAs p.required required)
      (hpresets : Json.ListAs "presets" (p.presets.map .str) presets)
      (hmembers : Json.Extends keys
        ([("name", .str p.name)] ++ kind ++ required ++ presets) members) :
      WrittenAs p (.obj members)

/-- The keys that mean something in an entry. -/
def CatalogEntry.keys : List String := ["name", "args"]

/-- What stands for a command. -/
inductive CatalogEntry.WrittenAs (e : CatalogEntry) : Json → Prop
  /-- An object with its fields. -/
  | intro {items : List Json} {args members : List (String × Json)}
      (hitems : List.Forall₂ Parameter.WrittenAs e.parameters items)
      (hargs : Json.ListAs "args" items args)
      (hmembers : Json.Extends keys ([("name", .str e.name)] ++ args) members) :
      WrittenAs e (.obj members)

/-- What stands for a catalog. -/
def Catalog.WrittenAs (c : Catalog) (v : Json) : Prop :=
  ∃ items, v = .arr items ∧ List.Forall₂ CatalogEntry.WrittenAs c.entries items

/-! ## Fields are decoded -/

section

variable {key : String} {ms : List (String × Json)}

theorem Json.ListAs.lastMember?_of_ne {own : String} {items : List Json} (h : ListAs own items ms)
    (hkey : own ≠ key) : lastMember? key ms = none := by
  cases h with
  | given => rw [lastMember?_singleton, if_neg hkey]
  | missing => rfl

/-- A list is decoded item by item. -/
theorem Json.ListAs.decode {α : Type} {item : Json → Decoded α} {items : List Json} {xs : List α}
    (h : ListAs key items ms) (hitems : List.Forall₂ (fun v x => item v = .ok x) items xs) :
    decodeOr [] (decodeList item) (lastMember? key ms) = .ok xs := by
  cases h with
  | given =>
    rw [lastMember?_singleton, if_pos rfl]
    exact mapM_eq_ok.2 hitems
  | missing =>
    cases hitems
    rfl

theorem ParameterKind.WrittenAs.lastMember?_of_ne {kind : ParameterKind} (h : kind.WrittenAs ms)
    (hkey : "type" ≠ key) : Json.lastMember? key ms = none := by
  cases h with
  | missing => rfl
  | _ => rw [Json.lastMember?_singleton, if_neg hkey]

theorem ParameterKind.ofName_tag (kind : ParameterKind) : ofName kind.tag = kind := by
  cases kind <;> rfl

theorem ParameterKind.WrittenAs.decode {kind : ParameterKind} (h : kind.WrittenAs ms) :
    decodeOr .other decodeKind (Json.lastMember? "type" ms) = .ok kind := by
  cases h with
  | tag =>
    rw [Json.lastMember?_singleton, if_pos rfl, decodeOr, decodeKind, ofName_tag]
  | @unknown name h =>
    have hname : ofName name = other := by
      simp only [List.map_cons, List.map_nil, List.mem_cons, List.not_mem_nil, not_or,
        ParameterKind.tag] at h
      rw [ofName, if_neg h.1, if_neg h.2.1, if_neg h.2.2.1]
    rw [Json.lastMember?_singleton, if_pos rfl, decodeOr, decodeKind, hname]
  | missing => rfl

theorem Parameter.RequiredAs.lastMember?_of_ne {b : Bool} (h : RequiredAs b ms)
    (hlong : "required" ≠ key) (hshort : "require" ≠ key) : Json.lastMember? key ms = none := by
  cases h with
  | long => rw [Json.lastMember?_singleton, if_neg hlong]
  | short => rw [Json.lastMember?_singleton, if_neg hshort]
  | missing => rfl

theorem Parameter.RequiredAs.decode {b : Bool} (h : RequiredAs b ms) :
    decodeRequired (Json.lastMember? "require" ms) (Json.lastMember? "required" ms) = .ok b := by
  cases h <;> rfl

end

/-! ## Values are decoded -/

/-- A parameter is decoded from what stands for it. -/
theorem Parameter.WrittenAs.decode {p : Parameter} {v : Json} (h : p.WrittenAs v) :
    decodeParameter v = .ok p := by
  obtain ⟨hkind, hrequired, hpresets, hmembers⟩ := h
  have hlookup : ∀ key ∈ keys, _ := fun key hkey => hmembers.lastMember?_eq hkey
  simp only [keys, List.forall_mem_cons, Json.lastMember?_append, Json.lastMember?_singleton]
    at hlookup
  obtain ⟨hname, htype, hshort, hlong, hlist, -⟩ := hlookup
  -- Of the members that mean something, each has its own key.
  simp only [hkind.lastMember?_of_ne, hrequired.lastMember?_of_ne, hpresets.lastMember?_of_ne,
    ne_eq, String.reduceEq, not_false_eq_true, Option.none_or, Option.or_none, if_false, if_true]
    at hname htype hshort hlong hlist
  have hstrings : List.Forall₂ (fun v s => decodeString v = .ok s) (p.presets.map .str) p.presets :=
    List.forall₂_map_left_iff.2 (List.forall₂_same.2 fun _ _ => rfl)
  rw [decodeParameter, decodeParameterFields, hname, htype, hshort, hlong, hlist,
    hpresets.decode hstrings, hrequired.decode, hkind.decode]
  rfl

/-- A command is decoded from what stands for it, which has its name. -/
theorem CatalogEntry.WrittenAs.decode {e : CatalogEntry} {v : Json} (h : e.WrittenAs v) :
    v.IsNamed e.name ∧ decodeEntry e.name v = .ok e := by
  obtain ⟨hitems, hargs, hmembers⟩ := h
  have hlookup : ∀ key ∈ keys, _ := fun key hkey => hmembers.lastMember?_eq hkey
  simp only [keys, List.forall_mem_cons, Json.lastMember?_append, Json.lastMember?_singleton]
    at hlookup
  obtain ⟨hname, hlist, -⟩ := hlookup
  simp only [hargs.lastMember?_of_ne, ne_eq, String.reduceEq, not_false_eq_true, Option.none_or,
    Option.or_none, if_false, if_true] at hname hlist
  refine ⟨⟨_, rfl, hname⟩, ?_⟩
  rw [decodeEntry, Json.field?, hlist, hargs.decode (hitems.flip.imp fun _ _ hitem => hitem.decode)]
  rfl

namespace Catalog

/-- **A catalog is decoded** from what stands for it. -/
theorem WrittenAs.ofJson {c : Catalog} {v : Json} (h : c.WrittenAs v) : ofJson v = .ok c := by
  obtain ⟨items, rfl, hitems⟩ := h
  exact ofJson_eq_ok.2 (hitems.flip.imp fun _ _ he => he.decode)

end Catalog

/-! ## What stands for a catalog is a plain value -/

section

variable {ok : Nat → Prop} {d : Nat} {known members : List (String × Json)}

theorem Json.Extends.plain {keys : List String} (h : Extends keys known members)
    (hknown : ∀ m ∈ known, Plain ok d m.2) : ∀ m ∈ members, Plain ok d m.2 := by
  intro m hm
  by_cases hkey : m.1 ∈ keys
  · refine hknown m ?_
    rw [← h.filter_eq, List.mem_filter]
    exact ⟨hm, decide_eq_true hkey⟩
  · obtain ⟨s, hs⟩ := h.isString m hm hkey
    rw [hs]
    exact .str s

theorem Json.ListAs.plain {key : String} {items : List Json} (h : ListAs key items members)
    (hitems : ∀ v ∈ items, Plain ok d v) : ∀ m ∈ members, Plain ok (d + 1) m.2 := by
  cases h with
  | given => simpa using Plain.arr hitems
  | missing => simp

theorem ParameterKind.WrittenAs.plain {kind : ParameterKind} (h : kind.WrittenAs members) :
    ∀ m ∈ members, Json.Plain ok d m.2 := by
  cases h <;> simp [Json.Plain.str]

theorem Parameter.RequiredAs.plain {b : Bool} (h : RequiredAs b members) :
    ∀ m ∈ members, Json.Plain ok d m.2 := by
  cases h <;> simp [Json.Plain.bool]

theorem Parameter.WrittenAs.plain {p : Parameter} {v : Json} (h : p.WrittenAs v) :
    Json.Plain ok (d + 2) v := by
  obtain ⟨hkind, hrequired, hpresets, hmembers⟩ := h
  refine .obj (hmembers.plain ?_)
  simp only [List.forall_mem_append, List.forall_mem_singleton]
  refine ⟨⟨⟨.str _, hkind.plain⟩, hrequired.plain⟩, hpresets.plain ?_⟩
  simp [Json.Plain.str]

theorem CatalogEntry.WrittenAs.plain {e : CatalogEntry} {v : Json} (h : e.WrittenAs v) :
    Json.Plain ok (d + 4) v := by
  obtain ⟨hitems, hargs, hmembers⟩ := h
  have hplain := (List.forall₂_and_left _ _).1
    (hitems.flip.imp fun v _ hitem => ⟨(hitem.plain : Json.Plain ok (d + 2) v), hitem⟩)
  refine .obj (hmembers.plain (List.forall_mem_append.2 ⟨?_, hargs.plain hplain.1⟩))
  exact List.forall_mem_singleton.2 (.str _)

theorem Catalog.WrittenAs.plain {c : Catalog} {v : Json} (h : c.WrittenAs v) :
    Json.Plain ok (d + 5) v := by
  obtain ⟨items, rfl, hitems⟩ := h
  exact .arr ((List.forall₂_and_left _ _).1 (hitems.flip.imp fun _ _ he => ⟨he.plain, he⟩)).1

end

/-! ## The document that is printed -/

theorem Parameter.writtenAs_json (p : Parameter) : p.WrittenAs p.json :=
  .intro (.tag p.kind) (.long p.required) (.given _) (.refl (by simp [keys]))

theorem CatalogEntry.writtenAs_json (e : CatalogEntry) : e.WrittenAs e.json :=
  .intro (List.forall₂_map_right_iff.2 (List.forall₂_same.2 fun p _ => p.writtenAs_json)) (.given _)
    (.refl (by simp [keys]))

namespace Catalog

theorem writtenAs_json (c : Catalog) : c.WrittenAs c.json :=
  ⟨_, rfl, List.forall₂_map_right_iff.2 (List.forall₂_same.2 fun e _ => e.writtenAs_json)⟩

/-- **A catalog is read as it is written**, and as it may be written: the printed document is one of
the values that stand for the catalog, and every text that holds such a value is read as the
catalog. -/
theorem read_writtenAs (c : Catalog) :
    read c.document = .ok c ∧ c.WrittenAs c.json ∧
    ∀ v, c.WrittenAs v → read (Json.document v) = .ok c ∧
      ∀ text, Json.read text = .ok v → read text = .ok c := by
  have htext : ∀ v, c.WrittenAs v → ∀ text, Json.read text = .ok v → read text = .ok c :=
    fun v hv text htext => by rw [read_eq_ofJson htext, hv.ofJson]
  have hdocument : ∀ v, c.WrittenAs v → read (Json.document v) = .ok c :=
    fun v hv => htext v hv _ (Json.read_document hv.plain)
  exact ⟨hdocument _ c.writtenAs_json, c.writtenAs_json, fun v hv => ⟨hdocument v hv, htext v hv⟩⟩

/-- A command with a parameter that must be given, and a command without parameters. -/
def bellCatalog : Catalog := ⟨[⟨"RING", [⟨"times", .other, true, []⟩]⟩, ⟨"GONG", []⟩]⟩

/-- The same, with little more than has to be said, and a little that means nothing. -/
def bellEntries : List Json :=
  [.obj [("info", .str "\"\n"), ("name", .str "RING"),
      ("args", .arr [.obj [("name", .str "times"), ("type", .str "number"), ("unit", .str "s"),
        ("require", .bool true)]])],
    .obj [("name", .str "GONG")]]

theorem read_writtenAs_bellCatalog :
    bellCatalog.WrittenAs (.arr bellEntries) ∧
      read (Json.document (.arr bellEntries)) = .ok bellCatalog := by
  have hparameter : Parameter.WrittenAs ⟨"times", .other, true, []⟩ (.obj [("name", .str "times"),
      ("type", .str "number"), ("unit", .str "s"), ("require", .bool true)]) :=
    .intro (.unknown (by decide)) (.short true) .missing ⟨rfl, by simp [Parameter.keys]⟩
  have hwritten : bellCatalog.WrittenAs (.arr bellEntries) :=
    ⟨_, rfl, .cons (.intro (.cons hparameter .nil) (.given _) ⟨rfl, by simp [CatalogEntry.keys]⟩)
      (.cons (.intro .nil .missing ⟨rfl, by simp [CatalogEntry.keys]⟩) .nil)⟩
  exact ⟨hwritten, ((read_writtenAs bellCatalog).2.2 _ hwritten).1⟩

end Catalog

end Gamebook
