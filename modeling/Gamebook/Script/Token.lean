import Gamebook.Grammar.Keyword
import Gamebook.Grammar.Marker
import Gamebook.Script.Layout
import Gamebook.Text.Pieces

/-!
Gamebook.Script.Token — the meaning of the words of a line.

The first character of a word, or its form as a whole, decides what it is. Nothing fails here: a
word that fits nowhere is kept as it is. A text line is one token, which holds its clauses and its
text.

The names of pages and flags that a line mentions are collected apart (`Registry`): a name counts
when it stands as a word of its own behind its sigil, so neither the flags of clauses nor the text
of text lines add any.
-/

namespace Gamebook

open Text

/-- A clause-shaped word: a clause, or the word that negates the clause behind it. -/
inductive Guard where
  /-- `mode:not`. -/
  | negate
  /-- A condition or an effect. -/
  | clause (clause : Clause)
deriving DecidableEq, Repr

/-- What a word of a line is. -/
inductive Token where
  /-- A page, `@name`. -/
  | page (name : String)
  /-- A meta target, `@^HERE` or `@^BACK`. -/
  | metaTarget (target : MetaTarget)
  /-- A flag, `$name`. -/
  | flag (name : String)
  /-- A special label. -/
  | special (label : Special)
  /-- A quoted text, without the quotation marks at its ends. -/
  | text (text : String)
  /-- A command, `#name`; the name may be empty. -/
  | exec (name : String)
  /-- A keyword. -/
  | keyword (keyword : Keyword)
  /-- A clause-shaped word. -/
  | guard (guard : Guard)
  /-- A time limit, `time:name`. -/
  | time (limit : TimeLimit)
  /-- A whole text line. -/
  | message (kind : MessageKind) (guards : List Guard) (text : String)
  /-- Any other word. -/
  | other (word : String)
deriving DecidableEq, Repr

/-- The flags that are listed behind the colon of a clause: the pieces between commas that are not
empty, each without one `$` at its start. -/
def flagList (s : List Char) : List String :=
  ((pieces ',' s).filter (· != [])).map fun piece =>
    String.ofList ((dropPrefix? ['$'] piece).getD piece)

/-- The text in front of the first colon, and the text behind it. -/
def splitAtColon? (word : List Char) : Option (List Char × List Char) :=
  match word.dropWhile (· != ':') with
  | [] => none
  | _ :: value => some (word.takeWhile (· != ':'), value)

namespace Guard

/-- The clause-shaped word that is written so. -/
def ofWord? (word : List Char) : Option Guard :=
  if word = negation then some negate
  else match splitAtColon? word with
    | some (name, value) => (ClauseKind.ofName? name).map fun k => clause ⟨k, flagList value⟩
    | none => none

end Guard

namespace Token

/-- The token of a word without a sigil: a keyword, a time limit or a clause-shaped word. -/
def ofPlainWord (word : List Char) : Token :=
  match Keyword.ofWord? word with
  | some k => keyword k
  | none => match dropPrefix? TimeLimit.sigil word with
    | some name => match TimeLimit.ofName? name with
      | some limit => time limit
      | none => other (String.ofList word)
    | none => match Guard.ofWord? word with
      | some g => guard g
      | none => other (String.ofList word)

/-- The token of a word. -/
def ofWord (word : List Char) : Token :=
  let unknown := other (String.ofList word)
  match word with
  | '@' :: '^' :: name => match MetaTarget.ofName? name with
    | some target => metaTarget target
    | none => unknown
  | '@' :: name => if name = [] then unknown else page (String.ofList name)
  | '$' :: name => if name = [] then unknown else flag (String.ofList name)
  | '/' :: _ => match Special.ofWord? word with
    | some label => special label
    | none => unknown
  | '"' :: rest => text (String.ofList (chop '"' rest))
  | '#' :: name => exec (String.ofList name)
  | _ => ofPlainWord word

/-- The tokens of a trimmed line without its comment. -/
def ofLine (line : List Char) : List Token :=
  match layout? line with
  | some l =>
    [message l.kind (l.clauses.filterMap fun w => Guard.ofWord? w.text)
      (String.ofList (textFrom l.textStart line))]
  | none => (segments line).map fun w => ofWord w.text

/-- The clause-shaped word that the token is. -/
def guard? : Token → Option Guard
  | guard g => some g
  | _ => none

end Token

/-- Add a name at the end of the list, if it is not there yet. -/
def insertNew (names : List String) (name : String) : List String :=
  if name ∈ names then names else names ++ [name]

/-- The names that were mentioned, in the order in which they came first. -/
structure Registry where
  /-- The names of pages. -/
  pages : List String := []
  /-- The names of flags. -/
  flags : List String := []
deriving DecidableEq, Repr

namespace Registry

/-- Note the name that a token mentions. -/
def noteToken (r : Registry) : Token → Registry
  | .page name => { r with pages := insertNew r.pages name }
  | .flag name => { r with flags := insertNew r.flags name }
  | _ => r

/-- Note the names that a line mentions, word by word. -/
def note (r : Registry) (tokens : List Token) : Registry := tokens.foldl noteToken r

end Registry

/-! ## Small lemmas -/

theorem nodup_insertNew {names : List String} (h : names.Nodup) (name : String) :
    (insertNew names name).Nodup := by
  rw [insertNew]
  split
  · exact h
  next hn => exact List.nodup_append.2 ⟨h, by simp, by simp; grind⟩

theorem mem_insertNew {names : List String} {name x : String} :
    x ∈ insertNew names name ↔ x ∈ names ∨ x = name := by
  rw [insertNew]
  split
  next hn => grind
  · simp

end Gamebook
