import Gamebook.Pattern
import Gamebook.Proofs.Text.Trim
import Gamebook.Script.Basic

/-!
Gamebook.Proofs.Story.Basic — stories, and how they are written down.

A story is a script before it has a text: a name, flags, and pages of commands. What makes it one is
part of it. Names are names, texts fit on their lines, and each page or flag that a command mentions
is one of the story.

`Story.text` writes a story down, line by line: the header, the flags if there are any, and each page
with its commands. Words stand behind each other with one space in between. The space belongs to the
word behind it (`spaced`), so that a line is a keyword and then words, each with its separator.

`ruinsStory` is a story with something of everything, and `ruinsText` is what it looks like.
-/

namespace Gamebook

open Text

/-! ## Names and texts -/

/-- The name of a page or of a flag. -/
def IsName (name : String) : Prop := name ≠ "" ∧ ∀ c ∈ name.toList, isWordChar c = true

instance (name : String) : Decidable (IsName name) :=
  inferInstanceAs (Decidable (name ≠ "" ∧ _))

/-- The name of a command of the engine. -/
def IsCommandName (name : String) : Prop := name ≠ "" ∧ ∀ c ∈ name.toList, isCommandChar c = true

instance (name : String) : Decidable (IsCommandName name) :=
  inferInstanceAs (Decidable (name ≠ "" ∧ _))

/-- A text that can stand between quotation marks. -/
def IsQuotable (text : String) : Prop := '"' ∉ text.toList ∧ '\n' ∉ text.toList

instance (text : String) : Decidable (IsQuotable text) :=
  inferInstanceAs (Decidable ('"' ∉ text.toList ∧ _))

/-- A text that can stand behind a marker: no comment starts in it, and no blank ends it. -/
def IsLineText (text : String) : Prop :=
  '\n' ∉ text.toList ∧ ¬ ['/', '/'] <:+: text.toList ∧
    ∀ c ∈ text.toList.getLast?, isBlank c = false

/-! ## Well-formed commands -/

section WellFormed

variable (pages flags : List String)

/-- The page that it leads to is one of the story. -/
def Destination.WellFormed : Destination → Prop
  | .page name => name ∈ pages
  | .stayHere | .goBack => True

/-- The page and the flags are those of the story. -/
structure Transition.WellFormed (t : Transition) : Prop where
  /-- The page that it leads to. -/
  destination : t.destination.WellFormed pages
  /-- The flags that it asks for. -/
  conditions : ∀ c ∈ t.conditions, c.flags ⊆ flags
  /-- The flags that it changes. -/
  effects : ∀ e ∈ t.effects, e.flags ⊆ flags

/-- An option shows a text, or it is taken when the menu is dismissed, or when the time is over. -/
inductive ChoiceOption.HasLabel : ChoiceOption → Prop
  | text {text : String} {t : Transition} (h : IsQuotable text) : HasLabel ⟨some text, false, false, t⟩
  | cancel {t : Transition} : HasLabel ⟨none, true, false, t⟩
  | timeup {t : Transition} : HasLabel ⟨none, false, true, t⟩

/-- How a text is written in quotation marks. -/
def quotation (text : String) : List Char := '"' :: (text.toList ++ ['"'])

/-- How a page is mentioned. -/
def pageWord (name : String) : List Char := '@' :: name.toList

/-- How a flag is mentioned. -/
def flagWord (name : String) : List Char := '$' :: name.toList

/-- An argument of a command of the engine, as it is written. -/
inductive IsArgument : String → Prop
  | text {text : String} (h : IsQuotable text) : IsArgument (String.ofList (quotation text))
  | page {name : String} (h : name ∈ pages) : IsArgument (String.ofList (pageWord name))
  | flag {name : String} (h : name ∈ flags) : IsArgument (String.ofList (flagWord name))

/-- The command can be written on lines of its own, and mentions only what the story has. -/
def Command.WellFormed : Command → Prop
  | .textLine _ conditions text => (∀ c ∈ conditions, c.flags ⊆ flags) ∧ IsLineText text
  | .choice _ options => ∀ o ∈ options, o.HasLabel ∧ o.transition.WellFormed pages flags
  | .goto t => t.WellFormed pages flags
  | .exec name args => IsCommandName name ∧ ∀ a ∈ args, IsArgument pages flags a
  | .pageEnd _ => True
  | .broken .. => False

end WellFormed

/-- A script that can be written down. -/
structure Story where
  /-- The name of the story. -/
  name : String
  /-- The names of its flags. -/
  flags : List String
  /-- Its pages. -/
  pages : List Page
  /-- The name can be quoted. -/
  isQuotable_name : IsQuotable name
  /-- The names of flags are names. -/
  isName_flag : ∀ f ∈ flags, IsName f
  /-- No two flags have one name. -/
  nodup_flags : flags.Nodup
  /-- The names of pages are names. -/
  isName_page : ∀ p ∈ pages, IsName p.name
  /-- No two pages have one name. -/
  nodup_pages : (pages.map Page.name).Nodup
  /-- Commands mention pages and flags of the story only. -/
  wellFormed : ∀ p ∈ pages, ∀ c ∈ p.commands, c.WellFormed (pages.map Page.name) flags

/-! ## Words -/

/-- A clause with its flags. -/
def Clause.word (c : Clause) : List Char := c.kind.opening ++ [','].intercalate (c.flags.map flagWord)

/-- A condition as a clause. -/
def Condition.clause (c : Condition) : Clause := ⟨.condition c.polarity, c.flags⟩

/-- An effect as a clause. -/
def Effect.clause (e : Effect) : Clause := ⟨.effect e.polarity, e.flags⟩

/-- The clauses of a transition, conditions first. -/
def Transition.clauses (t : Transition) : List Clause :=
  t.conditions.map Condition.clause ++ t.effects.map Effect.clause

/-- How a meta target is mentioned. -/
def MetaTarget.word (t : MetaTarget) : List Char := '@' :: '^' :: t.letters

/-- How a destination is mentioned. -/
def Destination.word : Destination → List Char
  | .page name => pageWord name
  | .stayHere => MetaTarget.here.word
  | .goBack => MetaTarget.back.word

/-- A transition: its destination and its clauses. -/
def Transition.words (t : Transition) : List (List Char) :=
  t.destination.word :: t.clauses.map Clause.word

/-- The label of an option. -/
def ChoiceOption.label (o : ChoiceOption) : List Char :=
  match o.text with
  | some text => quotation text
  | none => if o.isCancel then Special.cancel.letters else Special.timeup.letters

/-- How a time limit is written. -/
def TimeLimit.word (t : TimeLimit) : List Char := sigil ++ t.letters

/-! ## Lines -/

/-- Words behind each other, a space in front of each. -/
def spaced (ws : List (List Char)) : List Char := ws.flatMap (' ' :: ·)

/-- A line that opens with a keyword. -/
def Keyword.line (k : Keyword) (ws : List (List Char)) : List Char := k.letters ++ spaced ws

/-- A text line: its clauses, its marker and its text. -/
def textLine (kind : MessageKind) (clauses : List Clause) (text : String) : List Char :=
  clauses.flatMap (fun c => c.word ++ [' ']) ++ kind.marker :: ' ' :: text.toList

/-- The line of an option. -/
def ChoiceOption.line (o : ChoiceOption) : List Char := Keyword.is.line (o.label :: o.transition.words)

/-- The keyword that ends a page. -/
def PageEndMode.keyword : PageEndMode → Keyword
  | ret => .ret
  | back => .back

/-- The lines of a command. -/
def Command.lines : Command → List (List Char)
  | .textLine kind conditions text => [Gamebook.textLine kind (conditions.map Condition.clause) text]
  | .choice time options =>
    Keyword.choice.line (time.toList.map TimeLimit.word) :: options.map ChoiceOption.line
  | .goto t => [Keyword.goto.line t.words]
  | .exec name args => [Keyword.exec.line (('#' :: name.toList) :: args.map String.toList)]
  | .pageEnd mode => [mode.keyword.line []]
  | .broken _ source => [source.toList]

/-- The lines of a page. -/
def Page.lines (p : Page) : List (List Char) :=
  Keyword.page.line [pageWord p.name] :: p.commands.flatMap Command.lines

/-- The line that declares the flags, if there are any. -/
def flagLines (flags : List String) : List (List Char) :=
  if flags = [] then [] else [Keyword.flag.line (flags.map flagWord)]

namespace Story

/-- The lines of a story. -/
def lines (s : Story) : List (List Char) :=
  Keyword.define.line [quotation s.name] :: (flagLines s.flags ++ s.pages.flatMap Page.lines)

/-- A story, written down. -/
def text (s : Story) : String := String.ofList (['\n'].intercalate s.lines)

end Story

/-! ## A story of two pages -/

/-- A story with a menu and a command of the engine. What it quotes looks like a comment, a flag and
a page. -/
def ruinsStory : Story where
  name := "Ruins // of Ash"
  flags := ["met", "key"]
  pages :=
    [⟨"Gate",
      [.textLine .start [⟨.allFalse, ["met"]⟩] "Halt!",
        .choice (some .short)
          [⟨some "Enter $hall", false, false,
              ⟨.page "Hall", [⟨.allTrue, ["key", "met"]⟩], [⟨.setTrue, ["met"]⟩]⟩⟩,
            ⟨none, true, false, ⟨.stayHere, [], []⟩⟩,
            ⟨none, false, true, ⟨.goBack, [], []⟩⟩]]⟩,
      ⟨"Hall", [.exec "SHAKE" ["\"@hard\"", "@Gate", "$met"], .pageEnd .ret]⟩]
  isQuotable_name := by decide
  isName_flag := by decide +kernel
  nodup_flags := by decide
  isName_page := by decide +kernel
  nodup_pages := by decide
  wellFormed := by
    simp only [List.forall_mem_cons, List.not_mem_nil, IsEmpty.forall_iff, implies_true, and_true]
    refine ⟨⟨?text, ?menu⟩, ?command, trivial⟩
    case text => exact ⟨by simp, by decide, by decide, by decide⟩
    case menu =>
      simp only [Command.WellFormed, List.forall_mem_cons, List.not_mem_nil, IsEmpty.forall_iff,
        implies_true, and_true]
      refine ⟨⟨.text (by decide), ?_⟩, ⟨.cancel, ?_⟩, .timeup, ?_⟩
      · exact ⟨by simp [Destination.WellFormed], by simp, by simp⟩
      · exact ⟨trivial, by simp, by simp⟩
      · exact ⟨trivial, by simp, by simp⟩
    case command =>
      refine ⟨by decide +kernel, ?_⟩
      simp only [List.forall_mem_cons, List.not_mem_nil, IsEmpty.forall_iff, implies_true, and_true]
      exact ⟨@IsArgument.text _ _ "@hard" (by decide), @IsArgument.page _ _ "Gate" (by simp),
        @IsArgument.flag _ _ "met" (by simp)⟩

/-- The story of two pages, as it is written down. -/
def ruinsText : String :=
  "DEFINE \"Ruins // of Ash\"\nFLAG $met $key\nPAGE @Gate\nfalse:$met > Halt!\n" ++
  "CHOICE time:short\nIS \"Enter $hall\" @Hall true:$key,$met to-true:$met\n" ++
  "IS /CANCEL @^HERE\nIS /TIMEUP @^BACK\nPAGE @Hall\nEXEC #SHAKE \"@hard\" @Gate $met\nRETURN"

theorem text_ruinsStory : ruinsStory.text = ruinsText := by decide +kernel

end Gamebook
