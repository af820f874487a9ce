import Gamebook.Catalog.Basic
import Gamebook.Json.Printer
import Gamebook.Json.Reader
import Gamebook.Text.Quoted

/-!
Gamebook.Catalog.Reader — reading a catalog from a JSON document.

A document is looked at three times, and the first look that fails decides: it must be JSON, it
must be a list of objects that all have a string `name`, and its values must be what the fields
ask for. A field that is not known is passed over. The fields of an object are decoded in the
order of their names, so of two bad fields the one whose name comes first is reported.
-/

namespace Gamebook

/-! ## Errors -/

/-- What a field asks for. -/
inductive Wanted where
  /-- A string. -/
  | string
  /-- A truth value. -/
  | boolean
  /-- A list. -/
  | sequence
  /-- A string, or an object with one member. -/
  | stringOrMap
  /-- A parameter. -/
  | parameter
  /-- The null value. -/
  | unit
deriving DecidableEq, Repr

/-- How an error names what was asked for. -/
def Wanted.phrase : Wanted → String
  | string => "a string"
  | boolean => "a boolean"
  | sequence => "a sequence"
  | stringOrMap => "string or map"
  | parameter => "struct ExecArg"
  | unit => "unit"

/-- How an error names the value that was found. -/
def Json.phrase : Json → String
  | null => "null"
  | bool true => "boolean `true`"
  | bool false => "boolean `false`"
  | num (.int n) => "integer `" ++ toString n ++ "`"
  | num (.float x) => "floating point `" ++ String.ofList (Decimal.floatText x) ++ "`"
  | str s => "string " ++ Text.quoted s
  | arr _ => "sequence"
  | obj _ => "map"

/-- Why a value is not what a field asks for. -/
inductive DecodeError where
  /-- The value is of another type. -/
  | invalidType (found : Json) (wanted : Wanted)
  /-- A parameter without a name. -/
  | missingName
  /-- Both spellings of one field. -/
  | duplicateRequired
  /-- An empty list in the place of a parameter. -/
  | emptyParameter
  /-- A list with too many items in the place of a parameter. -/
  | longParameter (count : Nat)
  /-- An object without exactly one key in the place of a name. -/
  | notSingleKey

/-- What is said about the error. -/
def DecodeError.message : DecodeError → String
  | invalidType found wanted =>
    "invalid type: " ++ found.phrase ++ ", expected " ++ wanted.phrase
  | missingName => "missing field `name`"
  | duplicateRequired => "duplicate field `required`"
  | emptyParameter => "invalid length 0, expected struct ExecArg with 4 elements"
  | longParameter count =>
    "invalid length " ++ toString count ++ ", expected fewer elements in array"
  | notSingleKey => "invalid value: map, expected map with a single key"

/-- Why a text is no catalog. -/
inductive CatalogError where
  /-- The text is not JSON. -/
  | notJson (error : Json.SyntaxError)
  /-- The document is not a list. -/
  | notArray
  /-- The entry at this index, counted from 0, is not an object with a string `name`. -/
  | missingName (index : Nat)
  /-- A value is not what its field asks for. -/
  | badData (error : DecodeError)

/-- What is said about the error. -/
def CatalogError.message : CatalogError → String
  | notJson e => e.message
  | notArray => "catalog must be a JSON array of commands"
  | missingName index => "command " ++ toString index ++ " missing `name` field"
  | badData e => e.message

/-! ## Fields -/

/-- The result of decoding a value. -/
abbrev Decoded := Except DecodeError

/-- A string. -/
def decodeString : Json → Decoded String
  | .str s => .ok s
  | v => .error (.invalidType v .string)

/-- A truth value. -/
def decodeBool : Json → Decoded Bool
  | .bool b => .ok b
  | v => .error (.invalidType v .boolean)

/-- A list, item by item. -/
def decodeList {α : Type} (item : Json → Decoded α) : Json → Decoded (List α)
  | .arr items => items.mapM item
  | v => .error (.invalidType v .sequence)

/-- The value of a field, or a default where the field is missing. -/
def decodeOr {α : Type} (default : α) (decode : Json → Decoded α) : Option Json → Decoded α
  | some v => decode v
  | none => .ok default

/-- The kind with this name; any other name stands for a kind that asks for nothing. -/
def ParameterKind.ofName (name : String) : ParameterKind :=
  if name = "text" then text
  else if name = "flag" then flag
  else if name = "page" then page
  else other

/-- The name of a kind, either as a string or as the only key of an object with a null value. -/
def decodeKind : Json → Decoded ParameterKind
  | .str name => .ok (.ofName name)
  | .obj members =>
    match Json.distinctKeys members with
    | [key] => match Json.lastMember? key members with
      | some .null => .ok (.ofName key)
      | some v => .error (.invalidType v .unit)
      | none => .error .notSingleKey
    | _ => .error .notSingleKey
  | v => .error (.invalidType v .stringOrMap)

/-! ## Parameters and entries -/

/-- Whether an argument must be given: `require` and `required` are two spellings of one field. -/
def decodeRequired (short long : Option Json) : Decoded Bool :=
  match short, long with
  | some v, none => decodeBool v
  | none, some v => decodeBool v
  | none, none => .ok false
  | some v, some _ => do
    let _ ← decodeBool v
    .error .duplicateRequired

/-- A parameter from the members of an object. -/
def decodeParameterFields (members : List (String × Json)) : Decoded Parameter := do
  let name ← decodeOr none (fun v => some <$> decodeString v) (Json.lastMember? "name" members)
  let presets ← decodeOr [] (decodeList decodeString) (Json.lastMember? "presets" members)
  let required ← decodeRequired (Json.lastMember? "require" members)
    (Json.lastMember? "required" members)
  let kind ← decodeOr .other decodeKind (Json.lastMember? "type" members)
  match name with
  | some name => .ok ⟨name, kind, required, presets⟩
  | none => .error .missingName

/-- A parameter from the items of a list: name, kind, whether it is required, presets. Items may be
left out at the end. -/
def decodeParameterItems (items : List Json) : Decoded Parameter :=
  match items with
  | [] => .error .emptyParameter
  | v :: rest => do
    let name ← decodeString v
    let kind ← decodeOr .other decodeKind rest[0]?
    let required ← decodeOr false decodeBool rest[1]?
    let presets ← decodeOr [] (decodeList decodeString) rest[2]?
    if items.length ≤ 4 then .ok ⟨name, kind, required, presets⟩
    else .error (.longParameter items.length)

/-- A parameter. -/
def decodeParameter : Json → Decoded Parameter
  | .obj members => decodeParameterFields members
  | .arr items => decodeParameterItems items
  | v => .error (.invalidType v .parameter)

/-- The string `name` of an entry, if the entry is an object that has one. -/
def entryName? (entry : Json) : Option String := (entry.field? "name").bind Json.string?

/-- A command, with its name. -/
def decodeEntry (name : String) (entry : Json) : Decoded CatalogEntry := do
  let parameters ← decodeOr [] (decodeList decodeParameter) (entry.field? "args")
  .ok ⟨name, parameters⟩

namespace Catalog

/-- The names of the entries, or the index of the first entry without one; `index` is that of the
first of them. -/
def entryNames (index : Nat) : List Json → Except CatalogError (List (String × Json))
  | [] => .ok []
  | entry :: entries => match entryName? entry with
    | none => .error (.missingName index)
    | some name => (entryNames (index + 1) entries).map ((name, entry) :: ·)

/-- The catalog that a JSON value stands for. -/
def ofJson : Json → Except CatalogError Catalog
  | .arr entries => do
    let named ← entryNames 0 entries
    let decoded ← (named.mapM fun (name, entry) => decodeEntry name entry).mapError .badData
    .ok ⟨decoded⟩
  | _ => .error .notArray

/-- Read a catalog. -/
def read (text : String) : Except CatalogError Catalog := do
  let root ← (Json.read text).mapError .notJson
  ofJson root

end Catalog

end Gamebook
