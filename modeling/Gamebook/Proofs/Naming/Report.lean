import Gamebook.Proofs.Check.Origin
import Gamebook.Proofs.Naming.Place
import Gamebook.Proofs.Place.Message

/-!
Gamebook.Proofs.Naming.Report — the diagnostics that open with a text.

A reader of a report picks out diagnostics by what they say. Where the opening of a message tells
its cause, these diagnostics are the marks with that cause, in the order of the checks
(`filter_diagnostics`): no mark is lost on the way, and no other cause says the same.

For marks on names, the columns are those of the name on its line (`diagnostic?_name`).
-/

namespace Gamebook

open Text

/-! ## Causes and what they say -/

/-- What can be wrong with a name. -/
inductive NameFault where
  /-- It is declared nowhere. -/
  | undeclared
  /-- It was declared before. -/
  | duplicate
deriving DecidableEq, Repr

/-- What the errors about names of this kind open with. -/
def NameFault.saying (fault : NameFault) (kind : NameKind) : String :=
  match fault with
  | undeclared => "undefined " ++ kind.noun ++ ": "
  | duplicate => "duplicate " ++ kind.noun ++ " declaration: "

/-- The check that finds the fault. -/
def NameFault.origin : NameFault → Origin
  | undeclared => .reference
  | duplicate => .declaration

/-- What the cause says about a name, and of which kind the name is. -/
def Cause.nameFault? : Cause → Option (NameFault × NameKind)
  | undeclared kind _ => some (.undeclared, kind)
  | duplicate kind _ => some (.duplicate, kind)
  | _ => none

theorem Cause.nameFault?_eq_some_iff {c : Cause} {fault : NameFault} {kind : NameKind} :
    c.nameFault? = some (fault, kind) ↔
      ∃ x, c = match fault with
        | .undeclared => Cause.undeclared kind x
        | .duplicate => Cause.duplicate kind x := by
  cases c <;> cases fault <;> simp [nameFault?]

theorem Cause.origin_of_nameFault? {c : Cause} {fault : NameFault} {kind : NameKind}
    (h : c.nameFault? = some (fault, kind)) : c.origin = fault.origin := by
  obtain ⟨x, rfl⟩ := nameFault?_eq_some_iff.1 h
  cases fault <;> rfl

/-- The message opens with this text. -/
def Cause.opensWith (saying : String) (c : Cause) : Bool :=
  startsWith saying.toList c.message.toList

theorem Cause.opensWith_iff {saying : String} {c : Cause} :
    c.opensWith saying = true ↔ ∃ x, c.message = saying ++ x := by
  rw [opensWith, startsWith_iff]
  constructor
  · rintro ⟨r, hr⟩
    refine ⟨String.ofList r, String.toList_inj.1 ?_⟩
    rw [hr, String.toList_append, String.toList_ofList]
  · rintro ⟨x, hx⟩
    exact ⟨x.toList, by rw [hx, String.toList_append]⟩

/-- **What is said about a name tells its cause.** -/
theorem Cause.opensWith_saying_iff {c : Cause} {w : List Char} (hw : c.StandsOn w)
    (fault : NameFault) (kind : NameKind) :
    c.opensWith (fault.saying kind) = true ↔ c.nameFault? = some (fault, kind) := by
  rw [opensWith_iff, nameFault?_eq_some_iff]
  constructor
  · rintro ⟨x, hx⟩
    cases fault with
    | undeclared => exact ⟨x, eq_undeclared hw kind hx⟩
    | duplicate => exact ⟨x, eq_duplicate hw kind hx⟩
  · rintro ⟨x, rfl⟩
    cases fault with
    | undeclared => exact ⟨x, rfl⟩
    | duplicate => exact ⟨x, rfl⟩

/-! ## From diagnostics to marks -/

/-- The marks that say this about a name of this kind. -/
def faultMarks (fault : NameFault) (kind : NameKind) (ms : List Mark) : List Mark :=
  ms.filter fun m => m.cause.nameFault? = some (fault, kind)

/-- **Diagnostics picked by their opening are the marks with one cause.** -/
theorem filter_diagnostics (fault : NameFault) (kind : NameKind) (catalog : Catalog)
    (text : String) :
    (diagnostics catalog text).filter (fun d => d.opensWith (fault.saying kind)) =
      (faultMarks fault kind (allMarks catalog (Line.ofText text.toList))).filterMap
        Mark.diagnostic? := by
  have hheader : Cause.noHeader.opensWith (fault.saying kind) = false := by
    cases fault <;> cases kind <;> decide
  have hcause : ∀ (c : Cause) (w : List Char), c.StandsOn w →
      c.opensWith (fault.saying kind) = decide (c.nameFault? = some (fault, kind)) := by
    intro c w hw
    rw [Bool.eq_iff_iff, Cause.opensWith_saying_iff hw, decide_eq_true_eq]
  exact filter_diagnostics_of_message
    (fun message => startsWith (fault.saying kind).toList message.toList)
    (fun c => c.nameFault? = some (fault, kind)) hheader hcause catalog text

/-- Other checks have no such marks. -/
theorem faultMarks_eq_nil {fault : NameFault} {ms : List Mark}
    (h : ∀ m ∈ ms, m.cause.origin ≠ fault.origin) (kind : NameKind) :
    faultMarks fault kind ms = [] :=
  List.filter_eq_nil_iff.2 fun m hm hfault =>
    h m hm (Cause.origin_of_nameFault? (of_decide_eq_true hfault))

theorem ComesFrom.faultMarks_eq_nil {origin : Origin} {ms : List Mark} (h : ComesFrom origin ms)
    {fault : NameFault} (hne : origin ≠ fault.origin) (kind : NameKind) :
    faultMarks fault kind ms = [] :=
  Gamebook.faultMarks_eq_nil (fun m hm => by rwa [h m hm]) kind

@[simp] theorem faultMarks_append (fault : NameFault) (kind : NameKind) (ms ns : List Mark) :
    faultMarks fault kind (ms ++ ns) = faultMarks fault kind ms ++ faultMarks fault kind ns :=
  List.filter_append ms ns

theorem faultMarks_marksFrom {d : Declared} {fault : NameFault} {kind : NameKind}
    {f : Line → List Mark} (h : ∀ s line, faultMarks fault kind (lineMarks d s line) = f line)
    (lines : List Line) (s : CheckState) :
    faultMarks fault kind (marksFrom d s lines) = lines.flatMap f :=
  filter_marksFrom_eq_flatMap h lines s

/-! ## The places of names -/

/-- **The diagnostic for a mark on a name** is the error about the name at its place. -/
theorem diagnostic?_name {line : Line} {p name r : List Char} {sigil : Char} {cause : Cause}
    {saying : String} (hraw : line.raw = p ++ sigil :: name ++ r)
    (hmessage : cause.message = saying ++ String.ofList name)
    (hseverity : cause.severity = .error) :
    Mark.diagnostic? ⟨line, ⟨byteLength p, byteLength p + byteLength (sigil :: name)⟩, cause⟩ =
      some (NamePlace.error saying ⟨line, p.length, name⟩) := by
  have hcolumns := Span.columns?_append p r (List.cons_ne_nil sigil name)
  rw [← hraw] at hcolumns
  have hlength : p.length + (sigil :: name).length + 1 = p.length + 1 + (1 + name.length) := by
    rw [List.length_cons]
    omega
  rw [Mark.diagnostic?, Mark.finding?, hcolumns, Option.map_some, Option.map_some, hlength,
    Finding.diagnostic, hmessage, hseverity]
  rfl

end Gamebook
