import Gamebook.Catalog.Basic
import Gamebook.Json.Printer

/-!
Gamebook.Catalog.Printer — writing a catalog as a JSON document.

Every field is written, also one that has its default value. What is written here is what
`Catalog.read` reads.
-/

namespace Gamebook

/-- The name of the kind in documents. -/
def ParameterKind.tag : ParameterKind → String
  | text => "text"
  | flag => "flag"
  | page => "page"
  | other => "other"

/-- A parameter. -/
def Parameter.json (p : Parameter) : Json :=
  .obj [("name", .str p.name), ("type", .str p.kind.tag), ("required", .bool p.required),
    ("presets", .strs p.presets)]

/-- A command. -/
def CatalogEntry.json (e : CatalogEntry) : Json :=
  .obj [("name", .str e.name), ("args", .arr (e.parameters.map Parameter.json))]

namespace Catalog

/-- A catalog. -/
def json (c : Catalog) : Json := .arr (c.entries.map CatalogEntry.json)

/-- The document for a catalog. -/
def document (c : Catalog) : String := Json.document c.json

end Catalog

end Gamebook
