import Gamebook.Check.Declaration
import Gamebook.Proofs.Check.Line
import Gamebook.Proofs.Script.Partition

/-!
Gamebook.Proofs.Script.Registry — the names that a script has registered.

Names are noted while words become tokens, before any page or command is made. So it is not the
pages of a script that decide which names it has, but the words of all its lines: a name is
*mentioned* where it stands as a word of its own behind its sigil (`NameKind.mentions`), on whatever
line of code, unless that is a text line.

* `Registry.names_foldl_noteToken`: what a list of tokens adds to the registry, by what one token
  adds to it.
* `name?_ofWord`: a token has a name exactly where its word mentions it.

`names_registered` follows, and that the registry knows all pages and all destinations.
-/

namespace Gamebook

open Text

/-! ## Mentions -/

/-- What can be registered as a name of the kind: anything but the empty name. Behind the sigil of
pages, a caret opens a meta target and not a name. -/
def NameKind.Admits (kind : NameKind) (name : String) : Prop :=
  name ≠ "" ∧ (kind = page → name.toList.head? ≠ some '^')

instance (kind : NameKind) (name : String) : Decidable (kind.Admits name) :=
  inferInstanceAs (Decidable (_ ∧ _))

/-- The name that a word mentions: all that stands behind its sigil. -/
def NameKind.mentioned? (kind : NameKind) (word : List Char) : Option String :=
  match word with
  | c :: rest =>
    if c = kind.sigil ∧ kind.Admits (String.ofList rest) then some (String.ofList rest) else none
  | [] => none

/-- The words of a line that is no text line, without its comment. -/
def commandWords (raw : List Char) : List (List Char) :=
  if layout? (lineBody raw) = none then words (lineBody raw) else []

/-- The names of a kind that the text mentions, from the first line to the last one and from left
to right. -/
def NameKind.mentions (kind : NameKind) (text : List Char) : List String :=
  (lines text).flatMap fun raw => (commandWords raw).filterMap kind.mentioned?

theorem NameKind.mentioned?_eq_some_iff {kind : NameKind} {word : List Char} {name : String} :
    kind.mentioned? word = some name ↔ kind.Admits name ∧ word = kind.sigil :: name.toList := by
  cases word with
  | nil => simp [mentioned?]
  | cons c rest =>
    rw [mentioned?, Option.ite_none_right_eq_some, Option.some.injEq, List.cons.injEq]
    constructor
    · rintro ⟨⟨hsigil, hname⟩, rfl⟩
      exact ⟨hname, hsigil, String.toList_ofList.symm⟩
    · rintro ⟨hname, hsigil, rfl⟩
      rw [String.ofList_toList]
      exact ⟨⟨hsigil, hname⟩, rfl⟩

theorem mem_commandWords {raw word : List Char} :
    word ∈ commandWords raw ↔ layout? (lineBody raw) = none ∧ word ∈ words (lineBody raw) := by
  rw [commandWords]
  split
  next h => simp [h]
  next h => simp [h]

/-- A name is mentioned where it stands as a word of its own behind its sigil. -/
theorem NameKind.mem_mentions_iff {kind : NameKind} {text : List Char} {name : String} :
    name ∈ kind.mentions text ↔ kind.Admits name ∧ ∃ raw ∈ lines text,
      layout? (lineBody raw) = none ∧ kind.sigil :: name.toList ∈ words (lineBody raw) := by
  simp only [mentions, List.mem_flatMap, List.mem_filterMap, NameKind.mentioned?_eq_some_iff,
    ← mem_commandWords]
  constructor
  · rintro ⟨raw, hraw, word, hword, hname, rfl⟩
    exact ⟨hname, raw, hraw, hword⟩
  · rintro ⟨hname, raw, hraw, hword⟩
    exact ⟨raw, hraw, _, hword, hname, rfl⟩

/-! ## Tokens with a name -/

namespace Token

/-- The name of the kind that the token is. -/
def name? : NameKind → Token → Option String
  | .page, page name => some name
  | .flag, flag name => some name
  | _, _ => none

theorem name?_ofPlainWord (kind : NameKind) (word : List Char) :
    (ofPlainWord word).name? kind = none := by
  unfold ofPlainWord
  repeat' split
  all_goals cases kind <;> rfl

/-- **A token has a name exactly where its word mentions it.** -/
theorem name?_ofWord (kind : NameKind) (word : List Char) :
    (ofWord word).name? kind = kind.mentioned? word := by
  unfold ofWord
  split
  next name =>
    cases kind <;> split <;> simp [name?, NameKind.mentioned?, NameKind.sigil, NameKind.Admits]
  next name hcaret =>
    have hhead : name.head? ≠ some '^' := by
      intro hhead
      obtain ⟨rest, hrest⟩ := List.head?_eq_some_iff.1 hhead
      exact hcaret rest hrest
    by_cases hname : name = [] <;> cases kind <;>
      simp [hname, hhead, name?, NameKind.mentioned?, NameKind.sigil, NameKind.Admits]
  next name =>
    by_cases hname : name = [] <;> cases kind <;>
      simp [hname, name?, NameKind.mentioned?, NameKind.sigil, NameKind.Admits]
  next => cases kind <;> split <;> rfl
  next => cases kind <;> rfl
  next => cases kind <;> rfl
  next hpage hflag _ _ _ =>
    rw [name?_ofPlainWord]
    cases hname : kind.mentioned? word with
    | none => rfl
    | some name =>
      obtain ⟨-, hword⟩ := NameKind.mentioned?_eq_some_iff.1 hname
      cases kind with
      | page => exact (hpage _ hword).elim
      | flag => exact (hflag _ hword).elim

end Token

/-! ## Noting names -/

namespace Registry

/-- The names of a kind. -/
def names (r : Registry) : NameKind → List String
  | .page => r.pages
  | .flag => r.flags

/-- A token adds its name, if it has one that is new. -/
theorem names_noteToken (r : Registry) (kind : NameKind) (token : Token) :
    (r.noteToken token).names kind =
      (token.name? kind).elim (r.names kind) (insertNew (r.names kind)) := by
  cases kind <;> cases token <;> rfl

/-- **Tokens add their names**, each where it comes first. -/
theorem names_foldl_noteToken (kind : NameKind) : ∀ (tokens : List Token) {r : Registry}
    {seen : List String}, r.names kind = seen.eraseDups →
      (tokens.foldl noteToken r).names kind =
        (seen ++ tokens.filterMap (Token.name? kind)).eraseDups
  | [], r, seen, h => by simpa using h
  | token :: tokens, r, seen, h => by
      have hstep := names_noteToken r kind token
      rw [List.foldl_cons]
      cases hname : token.name? kind with
      | none =>
        rw [hname, Option.elim_none, h] at hstep
        rw [names_foldl_noteToken kind tokens hstep, List.filterMap_cons_none hname]
      | some name =>
        rw [hname, Option.elim_some, h, insertNew_eraseDups] at hstep
        rw [names_foldl_noteToken kind tokens hstep, List.filterMap_cons_some hname,
          List.append_assoc, List.singleton_append]

end Registry

theorem names_mentionedNames (kind : NameKind) (lines : List CodeLine) :
    (mentionedNames lines).names kind =
      ((lines.flatMap CodeLine.tokens).filterMap (Token.name? kind)).eraseDups := by
  have hempty : Registry.names {} kind = List.eraseDups [] := by cases kind <;> rfl
  rw [mentionedNames, ← List.nil_append (List.filterMap _ _),
    ← Registry.names_foldl_noteToken kind _ hempty, List.foldl_flatMap]
  rfl

/-! ## Names of a text -/

/-- The names among the tokens of a line are those that its words mention. -/
theorem filterMap_name?_tokens (kind : NameKind) (n : Nat) (raw : List Char) :
    ((CodeLine.ofRaw? n raw).toList.flatMap CodeLine.tokens).filterMap (Token.name? kind) =
      (commandWords raw).filterMap kind.mentioned? := by
  rw [commandWords]
  cases hlayout : layout? (lineBody raw) with
  | some l =>
    rw [CodeLine.ofRaw?]
    split
    next => rfl
    next =>
      rw [Token.ofLine, hlayout]
      cases kind <;> rfl
  | none =>
    have htokens : (CodeLine.ofRaw? n raw).toList.flatMap CodeLine.tokens =
        (words (lineBody raw)).map Token.ofWord := by
      rw [CodeLine.ofRaw?]
      split
      next hbody => rw [hbody]; rfl
      next => simp [Token.ofLine_of_layout?_eq_none hlayout]
    rw [htokens, List.filterMap_map, if_pos rfl]
    congr 1
    funext word
    exact Token.name?_ofWord kind word

theorem map_snd_numberFrom : ∀ (n : Nat) (ls : List (List Char)),
    (numberFrom n ls).map Prod.snd = ls
  | _, [] => rfl
  | n, l :: ls => by rw [numberFrom, List.map_cons, map_snd_numberFrom (n + 1) ls]

/-- **The registry holds the names that the text mentions**, each once, in the order in which they
come first. -/
theorem names_mentionedNames_codeLines (kind : NameKind) (text : List Char) :
    (mentionedNames (codeLines text)).names kind = (kind.mentions text).eraseDups := by
  have htokens : (codeLines text).flatMap CodeLine.tokens = (numberedLines text).flatMap fun l =>
      (CodeLine.ofRaw? l.1 l.2).toList.flatMap CodeLine.tokens := by
    rw [codeLines, List.filterMap_eq_flatMap_toList, List.flatMap_assoc]
  have hmentions : kind.mentions text = (numberedLines text).flatMap fun l =>
      (commandWords l.2).filterMap kind.mentioned? := by
    rw [NameKind.mentions, ← map_snd_numberFrom 1 (lines text), List.flatMap_map, numberedLines]
  rw [names_mentionedNames, htokens, hmentions, List.filterMap_flatMap]
  simp only [filterMap_name?_tokens]

/-- What some token of the text names is in the registry. -/
theorem mem_names_of_mem_tokens (kind : NameKind) {lines : List CodeLine} {line : CodeLine}
    {token : Token} {name : String} (hline : line ∈ lines) (htoken : token ∈ line.tokens)
    (hname : token.name? kind = some name) : name ∈ (mentionedNames lines).names kind := by
  rw [names_mentionedNames, List.mem_eraseDups, List.mem_filterMap]
  exact ⟨token, List.mem_flatMap.2 ⟨line, hline, htoken⟩, hname⟩

/-- The page that a line starts is one of its names. -/
theorem CodeLine.exists_mem_tokens_of_pageName? {line : CodeLine} {name : String}
    (h : line.pageName? = some name) : ∃ token ∈ line.tokens, token.name? .page = some name := by
  unfold pageName? at h
  split at h
  next htokens =>
    rw [htokens]
    exact ⟨_, .tail _ (.head _), h⟩
  next => exact absurd h (by simp)

/-- So is the page that it leads to. -/
theorem CodeLine.exists_mem_tokens_of_transition? {line : CodeLine} {t : Transition} {name : String}
    (h : line.transition? = some t) (hname : t.destination = .page name) :
    ∃ token ∈ line.tokens, token.name? .page = some name := by
  obtain ⟨destination, hfirst, rfl⟩ := Option.map_eq_some_iff.1 h
  obtain rfl : destination = .page name := hname
  obtain ⟨token, htoken, hpage⟩ := List.exists_of_findSome?_eq_some hfirst
  refine ⟨token, htoken, ?_⟩
  unfold Token.destination? at hpage
  split at hpage
  all_goals simp_all [Token.name?]

theorem Script.names_eq_mentionedNames {text : String} {script : Script}
    (h : Script.read text = .ok script) :
    script.pageNames = (mentionedNames (codeLines text.toList)).pages ∧
      script.flagNames = (mentionedNames (codeLines text.toList)).flags := by
  unfold Script.read at h
  simp only at h
  split at h
  next => exact absurd h (by simp)
  next =>
    rw [← Except.ok.inj h]
    exact ⟨rfl, rfl⟩

/-- **A script has registered the names that its text mentions.** The names of a kind are those that
stand as words of their own behind their sigil, on any line of code that is no text line, each once
and in the order in which they come first. So they include the names of all pages, and those of all
pages that a jump or an option leads to. -/
theorem names_registered {text : String} {script : Script} (h : Script.read text = .ok script) :
    script.pageNames = (NameKind.page.mentions text.toList).eraseDups ∧
      script.flagNames = (NameKind.flag.mentions text.toList).eraseDups ∧
      (∀ (kind : NameKind) (name : String), name ∈ kind.mentions text.toList ↔ kind.Admits name ∧
        ∃ raw ∈ lines text.toList, layout? (lineBody raw) = none ∧
          kind.sigil :: name.toList ∈ words (lineBody raw)) ∧
      ∀ page ∈ script.pages, page.name ∈ script.pageNames ∧
        ∀ command ∈ page.commands, ∀ t ∈ command.transitions, ∀ name,
          t.destination = .page name → name ∈ script.pageNames := by
  obtain ⟨hpages, hflags⟩ := Script.names_eq_mentionedNames h
  have hregistered := fun kind => names_mentionedNames_codeLines kind text.toList
  refine ⟨hpages.trans (hregistered .page), hflags.trans (hregistered .flag),
    fun _ _ => NameKind.mem_mentions_iff, ?_⟩
  intro page hpage
  rw [Script.read_eq_ok h] at hpage
  rw [hpages]
  constructor
  · obtain ⟨before, line, after, hlines, hline, -⟩ := Reader.exists_section_of_mem_run hpage
    obtain ⟨token, htoken, hname⟩ := CodeLine.exists_mem_tokens_of_pageName? hline
    refine mem_names_of_mem_tokens .page ?_ htoken hname
    rw [hlines]
    simp
  · intro command hcommand t ht name hname
    obtain ⟨line, hline, -, htransition⟩ :=
      (Reader.readFrom_run _ page hpage command hcommand).exists_line ht
    obtain ⟨token, htoken, hpageToken⟩ :=
      CodeLine.exists_mem_tokens_of_transition? htransition hname
    exact mem_names_of_mem_tokens .page hline htoken hpageToken

/-! ## A text whose names stand everywhere -/

/-- Names in front of the first page, on a page without a name, on a page that is replaced, and
where they do not count: in a message, in a comment, in quoted text and in a clause. -/
def rollText : String :=
  "DEFINE \"roll\"\nFLAG $a $b\nTO @early\nPAGE @p\n> not @said\nTO @q true:$c // @cut\n" ++
    "PAGE\nIS \"@quoted\" @skipped $d\nPAGE @p\nTO @^HERE $a"

/-- What is read of it. -/
def rollScript : Script :=
  ⟨"roll", ["early", "p", "q", "skipped"], ["a", "b", "d"], [⟨"p", [.goto ⟨.stayHere, [], []⟩]⟩]⟩

theorem read_rollText : Script.read rollText = .ok rollScript := by decide +kernel

/-- The names of the text, on the lines that made it into the script and on those that did not. -/
theorem names_registered_rollText : Script.read rollText = .ok rollScript ∧
    (NameKind.page.mentions rollText.toList).eraseDups = ["early", "p", "q", "skipped"] ∧
      (NameKind.flag.mentions rollText.toList).eraseDups = ["a", "b", "d"] ∧
      "p" ∈ rollScript.pageNames := by
  obtain ⟨hpages, hflags, -, hknown⟩ := names_registered read_rollText
  exact ⟨read_rollText, hpages.symm, hflags.symm, (hknown _ (.head _)).1⟩

end Gamebook
