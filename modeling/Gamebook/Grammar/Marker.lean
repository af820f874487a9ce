/-!
Gamebook.Grammar.Marker — the fixed words of the language that are not keywords.

Special labels stand in the place of an option's text, meta targets in the place of a page's name,
and time limits behind `time:` on a menu.
-/

namespace Gamebook

/-- Labels that an option may have in place of a text. -/
inductive Special where
  /-- Repeats the text of the option before. -/
  | same
  /-- The option taken when the menu is dismissed. -/
  | cancel
  /-- The option taken when the time is over. -/
  | timeup
deriving DecidableEq, Repr

namespace Special

/-- All special labels. -/
def all : List Special := [same, cancel, timeup]

/-- How the label is written. -/
def name : Special → String
  | same => "/SAME"
  | cancel => "/CANCEL"
  | timeup => "/TIMEUP"

/-- The characters of the label. -/
def letters (s : Special) : List Char := s.name.toList

/-- The label that is written so. -/
def ofWord? (word : List Char) : Option Special := all.find? fun s => s.letters = word

end Special

/-- Destinations that are not pages, written `@^HERE` and `@^BACK`. -/
inductive MetaTarget where
  /-- The page one is on. -/
  | here
  /-- The page one came from. -/
  | back
deriving DecidableEq, Repr

namespace MetaTarget

/-- All meta targets. -/
def all : List MetaTarget := [here, back]

/-- How the target is written behind `@^`. -/
def name : MetaTarget → String
  | here => "HERE"
  | back => "BACK"

/-- The characters of the target's name. -/
def letters (t : MetaTarget) : List Char := t.name.toList

/-- The target that is written so. -/
def ofName? (name : List Char) : Option MetaTarget := all.find? fun t => t.letters = name

end MetaTarget

/-- How long a menu stays open. -/
inductive TimeLimit where
  /-- The shortest time. -/
  | tooShort
  /-- A short time. -/
  | short
  /-- The usual time. -/
  | normal
  /-- A long time. -/
  | long
  /-- The longest time. -/
  | tooLong
deriving DecidableEq, Repr

namespace TimeLimit

/-- All time limits. -/
def all : List TimeLimit := [tooShort, short, normal, long, tooLong]

/-- How the limit is written behind `time:`. -/
def name : TimeLimit → String
  | tooShort => "too_short"
  | short => "short"
  | normal => "normal"
  | long => "long"
  | tooLong => "too_long"

/-- The characters of the limit's name. -/
def letters (t : TimeLimit) : List Char := t.name.toList

/-- The limit that is written so. -/
def ofName? (name : List Char) : Option TimeLimit := all.find? fun t => t.letters = name

/-- What stands in front of a time limit. -/
def sigil : List Char := "time:".toList

end TimeLimit

end Gamebook
