import Gamebook.Check.Diagnostic
import Gamebook.Json.Printer
import Gamebook.Script.Basic

/-!
Gamebook.Output.Document — diagnostics and scripts as JSON documents.

The members of an object stand in a fixed order. What kind of command or destination an object
stands for is said by a member of its own, which comes first; a destination other than a page has
no further member.
-/

namespace Gamebook

namespace Diagnostic

/-- A diagnostic. -/
def json (d : Diagnostic) : Json :=
  .obj [("line", .nat d.line), ("startColumn", .nat d.startColumn), ("endColumn", .nat d.endColumn),
    ("message", .str d.message), ("severity", .str d.severity.name)]

end Diagnostic

/-- The name of a polarity. -/
def ConditionPolarity.tag : ConditionPolarity → String
  | allTrue => "all-true"
  | allFalse => "all-false"
  | anyTrue => "any-true"
  | anyFalse => "any-false"

/-- The name of a polarity. -/
def EffectPolarity.tag : EffectPolarity → String
  | setTrue => "set-true"
  | setFalse => "set-false"

/-- The name of the kind of a text line. -/
def MessageKind.tag : MessageKind → String
  | start => "open"
  | append => "append"

/-- The name of the way in which a page ends. -/
def PageEndMode.tag : PageEndMode → String
  | ret => "return"
  | back => "back"

/-- A condition. -/
def Condition.json (c : Condition) : Json :=
  .obj [("polarity", .str c.polarity.tag), ("flags", .strs c.flags)]

/-- An effect. -/
def Effect.json (e : Effect) : Json :=
  .obj [("polarity", .str e.polarity.tag), ("flags", .strs e.flags)]

/-- A destination. -/
def Destination.json : Destination → Json
  | page name => .obj [("kind", .str "page"), ("page", .str name)]
  | stayHere => .obj [("kind", .str "stay-here")]
  | goBack => .obj [("kind", .str "go-back")]

/-- The members of a transition. -/
def Transition.members (t : Transition) : List (String × Json) :=
  [("destination", t.destination.json), ("conditions", .arr (t.conditions.map Condition.json)),
    ("effects", .arr (t.effects.map Effect.json))]

/-- A string, or null. -/
def Json.optional : Option String → Json
  | some s => .str s
  | none => .null

/-- An option; its transition's members are members of the option. -/
def ChoiceOption.json (o : ChoiceOption) : Json :=
  .obj ([("text", Json.optional o.text), ("is_cancel", .bool o.isCancel),
    ("is_timeout", .bool o.isTimeout)] ++ o.transition.members)

/-- A command; its kind comes first. -/
def Command.json : Command → Json
  | textLine kind conditions text =>
    .obj [("type", .str "text-line"), ("kind", .str kind.tag),
      ("conditions", .arr (conditions.map Condition.json)), ("text", .str text)]
  | choice time options =>
    .obj [("type", .str "choice"), ("time", Json.optional (time.map TimeLimit.name)),
      ("options", .arr (options.map ChoiceOption.json))]
  | goto t => .obj (("type", .str "goto") :: t.members)
  | exec name args => .obj [("type", .str "exec"), ("name", .str name), ("args", .strs args)]
  | pageEnd mode => .obj [("type", .str "page-end"), ("mode", .str mode.tag)]
  | broken line source =>
    .obj [("type", .str "parse-error"), ("line", .nat line), ("source", .str source)]

/-- A page, as a member of the object of all pages. -/
def Page.member (p : Page) : String × Json :=
  (p.name, .obj [("commands", .arr (p.commands.map Command.json))])

/-- A script. -/
def Script.json (s : Script) : Json :=
  .obj [("name", .str s.name), ("page_names", .strs s.pageNames), ("flag_names", .strs s.flagNames),
    ("pages", .obj (s.pages.map Page.member))]

namespace Output

/-- The diagnostics of a file, with the numbers of errors and warnings. -/
def diagnosticsJson (file : String) (ds : List Diagnostic) : Json :=
  .obj [("file", .str file), ("errors", .nat (Diagnostic.count .error ds)),
    ("warnings", .nat (Diagnostic.count .warning ds)),
    ("diagnostics", .arr (ds.map Diagnostic.json))]

/-- The document for the diagnostics of a file. -/
def diagnosticsDocument (file : String) (ds : List Diagnostic) : String :=
  Json.document (diagnosticsJson file ds)

/-- The document for a script. -/
def scriptDocument (script : Script) : String := Json.document script.json

end Output

end Gamebook
