/-!
Gamebook.Json.Basic — JSON values.

Values keep what a document says: the members of an object stay in their order, and a key may occur
more than once. Of members with one key the last one counts (`Json.field?`).
-/

namespace Gamebook

/-- A number of a JSON document. -/
inductive JsonNumber where
  /-- A whole number. -/
  | int (n : Int)
  /-- A number with a fraction or an exponent, or one that is too big for 64 bits. -/
  | float (x : Float)

/-- A JSON value. -/
inductive Json where
  /-- The null value. -/
  | null
  /-- A truth value. -/
  | bool (b : Bool)
  /-- A number. -/
  | num (n : JsonNumber)
  /-- A string. -/
  | str (s : String)
  /-- A list of values. -/
  | arr (items : List Json)
  /-- An object, with its members in the order of the document. -/
  | obj (members : List (String × Json))

namespace Json

/-- The natural number `n`. -/
def nat (n : Nat) : Json := num (.int n)

/-- A list of strings. -/
def strs (ss : List String) : Json := arr (ss.map str)

/-- The last of the members with this key. -/
def lastMember? (key : String) (members : List (String × Json)) : Option Json :=
  (members.reverse.find? fun m => m.1 = key).map Prod.snd

/-- The value of an object at a key. -/
def field? (key : String) : Json → Option Json
  | obj members => lastMember? key members
  | _ => none

/-- The string that the value is. -/
def string? : Json → Option String
  | str s => some s
  | _ => none

/-- The different keys of an object's members, in the order in which they come first. -/
def distinctKeys (members : List (String × Json)) : List String :=
  members.foldl (fun keys m => if m.1 ∈ keys then keys else keys ++ [m.1]) []

end Json

end Gamebook
