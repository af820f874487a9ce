import Gamebook.Proofs.Place.Report

/-!
Gamebook.Proofs.Place.Message — what a message names stands between its columns.

Many messages name a word of their line: a page that is declared nowhere, a keyword that has too few
arguments (`Mentions`). The reader of a report sees the message and the columns, and not the cause.
So a message has to be traced back to its cause before the place of its mark says anything.

Messages open in two ways. Some open with a character that no other family of messages opens with
(`Cause.initial?`). The others open with a word in capital letters, a keyword or the name of a
command, and then say something about it (`Cause.subject`, `Cause.predicate`). There the first space
tells where the word ends, and what is said tells keywords and commands apart.

`select_of_mentions` is the result: the word that a message names is what stands on the line between
the columns of the diagnostic.
-/

namespace Gamebook

open Text

/-! ## Messages that name a word -/

/-- The diagnostics that name a word of their line, by severity and message, and this word. -/
inductive Mentions : Severity → String → String → Prop where
  /-- A page that is declared nowhere. -/
  | undefinedPage (s : Severity) (x : String) : Mentions s ("undefined page: " ++ x) ("@" ++ x)
  /-- A page that was declared before. -/
  | duplicatePage (s : Severity) (x : String) :
    Mentions s ("duplicate page declaration: " ++ x) ("@" ++ x)
  /-- A flag that is declared nowhere. -/
  | undefinedFlag (s : Severity) (x : String) : Mentions s ("undefined flag: " ++ x) ("$" ++ x)
  /-- A flag that was declared before. -/
  | duplicateFlag (s : Severity) (x : String) :
    Mentions s ("duplicate flag declaration: " ++ x) ("$" ++ x)
  /-- A command that the catalog does not list. -/
  | undefinedCommand (s : Severity) (x : String) :
    Mentions s ("undefined command: " ++ x) ("#" ++ x)
  /-- A special label out of its place. -/
  | misplacedSpecial (s : Severity) (m : Special) :
    Mentions s (m.name ++ " is only valid on IS lines") m.name
  /-- A meta target in the place of a page's name. -/
  | metaDeclared (s : Severity) (t : MetaTarget) :
    Mentions s ("@^" ++ t.name ++ " cannot be used in a PAGE declaration") ("@^" ++ t.name)
  /-- A negation of nothing. -/
  | danglingNegation (s : Severity) :
    Mentions s "mode:not must be followed by a condition or effect" "mode:not"
  /-- A keyword with arguments that it does not take. -/
  | takesNoArguments (s : Severity) (k : Keyword) :
    Mentions s (k.name ++ " takes no arguments") k.name
  /-- A keyword behind the wrong line. -/
  | mustFollow (s : Severity) (k : Keyword) (x : String) :
    Mentions s (k.name ++ " must follow " ++ x) k.name
  /-- A second header. -/
  | repeatedHeader (s : Severity) : Mentions s "DEFINE may only appear once" "DEFINE"
  /-- A header without a name. -/
  | missingName : Mentions .error "DEFINE requires a script name (\"text\")" "DEFINE"
  /-- A keyword without one of its arguments. A command without one of its arguments is only warned
  about. -/
  | missingArgument (k : Keyword) (x : String) :
    Mentions .error (k.name ++ " requires argument " ++ x) k.name

/-! ## Texts that differ -/

/-- Neither of the texts is the beginning of the other one. -/
def Apart (a b : String) : Prop := ¬ a.toList <+: b.toList ∧ ¬ b.toList <+: a.toList

instance (a b : String) : Decidable (Apart a b) :=
  inferInstanceAs (Decidable (¬ a.toList <+: b.toList ∧ ¬ b.toList <+: a.toList))

/-- Nothing that follows makes such texts equal. -/
theorem Apart.append_ne {a b : String} (h : Apart a b) (x y : String) : a ++ x ≠ b ++ y := by
  intro heq
  have hlist := congrArg String.toList heq
  rw [String.toList_append, String.toList_append] at hlist
  have ha : a.toList <+: b.toList ++ y.toList := ⟨x.toList, hlist⟩
  rcases List.prefix_or_prefix_of_prefix ha (List.prefix_append _ _) with hprefix | hprefix
  · exact h.1 hprefix
  · exact h.2 hprefix

/-- The first space tells where the first word ends. -/
theorem eq_of_append_space {a b x y : String} (ha : ' ' ∉ a.toList) (hb : ' ' ∉ b.toList)
    (h : a ++ " " ++ x = b ++ " " ++ y) : a = b ∧ x = y := by
  have hfirst : ∀ {a x : List Char}, ' ' ∉ a → (a ++ ' ' :: x).takeWhile (· != ' ') = a := by
    intro a x ha
    refine takeWhile_append_of_head (fun c hc => ?_) (by simp)
    exact bne_iff_ne.2 fun heq => ha (heq ▸ hc)
  have hlist : a.toList ++ ' ' :: x.toList = b.toList ++ ' ' :: y.toList := by
    have := congrArg String.toList h
    simp only [String.toList_append, List.append_assoc] at this
    exact this
  have hab : a.toList = b.toList := by rw [← hfirst ha, hlist, hfirst hb]
  rw [hab, List.append_cancel_left_eq, List.cons.injEq] at hlist
  exact ⟨String.toList_inj.1 hab, String.toList_inj.1 hlist.2⟩

theorem Keyword.exists_head?_name (k : Keyword) :
    ∃ c, k.name.toList.head? = some c ∧ c.isUpper = true := by
  obtain ⟨c, r, hk⟩ := List.exists_cons_of_ne_nil k.letters_ne_nil
  refine ⟨c, congrArg List.head? hk, k.isUpper_of_mem_letters c ?_⟩
  rw [hk]
  exact List.mem_cons_self

theorem Keyword.notMem_name (k : Keyword) {c : Char} (h : c.isUpper = false) : c ∉ k.name.toList :=
  k.notMem_letters h

namespace Cause

variable {c : Cause} {w : List Char}

/-! ## How messages open -/

/-- The character that the message opens with, unless that is a word in capital letters. -/
@[simp] def initial? : Cause → Option Char
  | noHeader => some 'l'
  | duplicate .. => some 'd'
  | tooManyArguments _ => some 't'
  | badArgument _ _ kind => if kind = .time then none else some 'a'
  | commandArgumentForm .. => some 'a'
  | notPreset .. => some '"'
  | nothingToRepeat => some '/'
  | noTimeLimit => some '/'
  | misplacedSpecial _ => some '/'
  | metaDeclared _ => some '@'
  | undeclared .. => some 'u'
  | unknownCommand _ => some 'u'
  | joinedConditions => some 'c'
  | joinedEffects => some 'e'
  | misplacedTime => some 't'
  | misplacedCondition => some 'c'
  | misplacedEffect => some 'e'
  | danglingNegation => some 'm'
  | _ => none

/-- The word in capital letters that the message opens with. -/
def subject : Cause → String
  | repeatedHeader => Keyword.define.name
  | missingName => Keyword.define.name
  | misplaced k _ => k.name
  | takesNoArguments k => k.name
  | missingArgument k _ => k.name
  | badArgument k _ _ => k.name
  | commandTakesAtMost command _ => command
  | commandMissing command _ => command
  | commandArgumentShape => Keyword.exec.name
  | _ => ""

/-- What the message says about that word. -/
def predicate : Cause → String
  | repeatedHeader => "may only appear once"
  | missingName => "requires a script name (\"text\")"
  | misplaced _ follows => "must follow " ++ " or ".intercalate (follows.map Keyword.name)
  | takesNoArguments _ => "takes no arguments"
  | missingArgument _ place => "requires argument " ++ toString place
  | badArgument .. => "only accepts time:"
  | commandTakesAtMost _ count => "takes at most " ++ (toString count ++ " argument(s)")
  | commandMissing _ parameter => "requires argument " ++ parameter
  | commandArgumentShape => "arguments must be a @page, $flag or \"text\""
  | _ => ""

/-- The message opens with this character. -/
theorem head?_message (hw : c.StandsOn w) {d : Char} (h : c.initial? = some d) :
    c.message.toList.head? = some d := by
  cases c with
  | noHeader => exact absurd hw id
  | duplicate kind name =>
    obtain rfl := Option.some.inj h
    exact head?_toList_append (head?_toList_append (head?_toList_append (head?_literal _ _)))
  | tooManyArguments k =>
    obtain rfl := Option.some.inj h
    exact head?_toList_append (head?_literal _ _)
  | badArgument k place kind =>
    have hargument : (badArgumentMessage.argument k place).toList.head? = some 'a' :=
      head?_toList_append (head?_toList_append (head?_toList_append (head?_literal _ _)))
    cases kind with
    | time => exact absurd h (by simp)
    | _ =>
      obtain rfl := Option.some.inj h
      exact head?_toList_append hargument
  | commandArgumentForm parameter form =>
    obtain rfl := Option.some.inj h
    exact head?_toList_append (head?_toList_append (head?_toList_append (head?_literal _ _)))
  | notPreset text parameter command =>
    obtain rfl := Option.some.inj h
    obtain ⟨rfl, hfits⟩ := hw
    exact head?_toList_append (head?_toList_append (head?_toList_append (head?_toList_append
      (head?_toList_append (beq_iff_eq.1 hfits)))))
  | nothingToRepeat =>
    obtain rfl := Option.some.inj h
    exact head?_literal _ _
  | noTimeLimit =>
    obtain rfl := Option.some.inj h
    exact head?_literal _ _
  | metaDeclared target =>
    obtain rfl := Option.some.inj h
    obtain ⟨rfl, t, ht⟩ := hw
    exact head?_toList_append (by rw [ht]; rfl)
  | undeclared kind name =>
    obtain rfl := Option.some.inj h
    exact head?_toList_append (head?_toList_append (head?_toList_append (head?_literal _ _)))
  | unknownCommand name =>
    obtain rfl := Option.some.inj h
    exact head?_toList_append (head?_literal _ _)
  | joinedConditions =>
    obtain rfl := Option.some.inj h
    exact head?_toList_append (head?_literal _ _)
  | joinedEffects =>
    obtain rfl := Option.some.inj h
    exact head?_toList_append (head?_literal _ _)
  | misplacedTime =>
    obtain rfl := Option.some.inj h
    exact head?_literal _ _
  | misplacedSpecial label =>
    obtain rfl := Option.some.inj h
    obtain ⟨rfl, m, hm⟩ := hw
    exact head?_toList_append (by rw [hm]; cases m <;> exact head?_literal _ _)
  | misplacedCondition =>
    obtain rfl := Option.some.inj h
    exact head?_literal _ _
  | misplacedEffect =>
    obtain rfl := Option.some.inj h
    exact head?_literal _ _
  | danglingNegation =>
    obtain rfl := Option.some.inj h
    exact head?_literal _ _
  | _ => exact absurd h (by simp)

/-- The message is the word in capital letters and what it says about that word. -/
theorem message_eq (h : c.initial? = none) : c.message = c.subject ++ " " ++ c.predicate := by
  cases c with
  | repeatedHeader => rfl
  | missingName => rfl
  | commandArgumentShape => rfl
  | misplaced k follows =>
    show k.name ++ (" " ++ "must follow ") ++ _ = k.name ++ " " ++ ("must follow " ++ _)
    simp only [String.append_assoc]
  | takesNoArguments k =>
    show k.name ++ (" " ++ "takes no arguments") = k.name ++ " " ++ "takes no arguments"
    rw [String.append_assoc]
  | missingArgument k place =>
    show k.name ++ (" " ++ "requires argument ") ++ _ = k.name ++ " " ++ ("requires argument " ++ _)
    simp only [String.append_assoc]
  | badArgument k place kind =>
    cases kind with
    | time =>
      show k.name ++ (" " ++ "only accepts time:") = k.name ++ " " ++ "only accepts time:"
      rw [String.append_assoc]
    | _ => exact absurd h (by simp)
  | commandTakesAtMost command count =>
    show command ++ (" " ++ "takes at most ") ++ _ ++ _ =
      command ++ " " ++ ("takes at most " ++ (_ ++ _))
    simp only [String.append_assoc]
  | commandMissing command parameter =>
    show command ++ (" " ++ "requires argument ") ++ _ =
      command ++ " " ++ ("requires argument " ++ _)
    simp only [String.append_assoc]
  | _ => exact absurd h (by simp)

/-- No space and no small letter stands in the word. -/
theorem notMem_subject (hw : c.StandsOn w) {d : Char} (hd : isCommandChar d = false) :
    d ∉ c.subject.toList := by
  have hupper : d.isUpper = false := by
    cases hdu : d.isUpper with
    | false => rfl
    | true => rw [isCommandChar, hdu] at hd; exact absurd hd (by simp)
  have hcommand : ∀ {command : String}, (∀ c ∈ command.toList, isCommandChar c = true) →
      d ∉ command.toList := by
    intro command hchars hm
    rw [hchars d hm] at hd
    exact absurd hd (by decide)
  cases c with
  | repeatedHeader => exact Keyword.define.notMem_name hupper
  | missingName => exact Keyword.define.notMem_name hupper
  | misplaced k _ => exact k.notMem_name hupper
  | takesNoArguments k => exact k.notMem_name hupper
  | missingArgument k _ => exact k.notMem_name hupper
  | badArgument k _ _ => exact k.notMem_name hupper
  | commandTakesAtMost command _ => exact hcommand hw.2
  | commandMissing command _ => exact hcommand hw.2
  | commandArgumentShape => exact Keyword.exec.notMem_name hupper
  | _ => exact List.not_mem_nil

/-- What the message opens with is known from the message. -/
theorem initial?_eq_some (hw : c.StandsOn w) {d : Char} (h : c.message.toList.head? = some d)
    (hd : isCommandChar d = false) (hspace : d ≠ ' ') : c.initial? = some d := by
  cases hinitial : c.initial? with
  | some e => rw [← h, head?_message hw hinitial]
  | none =>
    -- The message would open with a capital letter, or with the space behind an empty word.
    rw [message_eq hinitial, String.toList_append, String.toList_append] at h
    cases hsubject : c.subject.toList with
    | nil =>
      rw [hsubject] at h
      exact absurd (Option.some.inj h).symm hspace
    | cons e s =>
      rw [hsubject] at h
      have hnot := notMem_subject hw hd
      rw [hsubject, ← Option.some.inj h] at hnot
      exact absurd List.mem_cons_self hnot

theorem isUpper_of_initial? {d : Char} (h : c.initial? = some d) : d.isUpper = false := by
  cases c with
  | badArgument k place kind =>
    obtain ⟨-, hd⟩ := Option.ite_none_left_eq_some.1 h
    obtain rfl := Option.some.inj hd
    decide
  | _ => first
    | (obtain rfl := Option.some.inj h; decide)
    | exact absurd h (by simp)

theorem initial?_eq_none (hw : c.StandsOn w) {k : Keyword} {x : String}
    (h : c.message = k.name ++ x) : c.initial? = none := by
  cases hinitial : c.initial? with
  | none => rfl
  | some d =>
    have hhead := head?_message hw hinitial
    obtain ⟨e, hname, hupper⟩ := k.exists_head?_name
    rw [h, head?_toList_append hname, Option.some.injEq] at hhead
    rw [hhead, isUpper_of_initial? hinitial] at hupper
    exact absurd hupper (by decide)

/-! ## From messages to words -/

/-- An undeclared name is told from all other messages. -/
theorem eq_undeclared (hw : c.StandsOn w) (kind : NameKind) {x : String}
    (h : c.message = "undefined " ++ kind.noun ++ ": " ++ x) : c = .undeclared kind x := by
  have hinitial : c.initial? = some 'u' := by
    refine initial?_eq_some hw ?_ (by decide) (by decide)
    rw [h]
    exact head?_toList_append (head?_toList_append (head?_toList_append (head?_literal _ _)))
  cases c with
  | undeclared kind' name =>
    by_cases hkind : kind' = kind
    · rw [hkind] at h ⊢
      rw [(String.append_right_inj _).1 h]
    · have hapart : Apart ("undefined " ++ kind'.noun ++ ": ")
          ("undefined " ++ kind.noun ++ ": ") := by
        cases kind' <;> cases kind <;> first | exact absurd rfl hkind | decide
      exact absurd h (hapart.append_ne _ _)
  | unknownCommand name =>
    have hapart : Apart "undefined command: " ("undefined " ++ kind.noun ++ ": ") := by
      cases kind <;> decide
    exact absurd h (hapart.append_ne _ _)
  | _ => exact absurd hinitial (by simp)

theorem eq_of_undeclared (hw : c.StandsOn w) (kind : NameKind) {x : String}
    (h : c.message = "undefined " ++ kind.noun ++ ": " ++ x) : w = kind.sigil :: x.toList := by
  rw [eq_undeclared hw kind h] at hw
  exact hw

theorem eq_of_unknownCommand (hw : c.StandsOn w) {x : String}
    (h : c.message = "undefined command: " ++ x) : w = '#' :: x.toList := by
  have hinitial : c.initial? = some 'u' := by
    refine initial?_eq_some hw ?_ (by decide) (by decide)
    rw [h]
    exact head?_toList_append (head?_literal _ _)
  cases c with
  | undeclared kind name =>
    have hapart : Apart ("undefined " ++ kind.noun ++ ": ") "undefined command: " := by
      cases kind <;> decide
    exact absurd h (hapart.append_ne _ _)
  | unknownCommand name =>
    rw [← (String.append_right_inj _).1 h]
    exact hw
  | _ => exact absurd hinitial (by simp)

/-- A name that was declared before is told from all other messages. -/
theorem eq_duplicate (hw : c.StandsOn w) (kind : NameKind) {x : String}
    (h : c.message = "duplicate " ++ kind.noun ++ " declaration: " ++ x) :
    c = .duplicate kind x := by
  have hinitial : c.initial? = some 'd' := by
    refine initial?_eq_some hw ?_ (by decide) (by decide)
    rw [h]
    exact head?_toList_append (head?_toList_append (head?_toList_append (head?_literal _ _)))
  cases c with
  | duplicate kind' name =>
    by_cases hkind : kind' = kind
    · rw [hkind] at h ⊢
      rw [(String.append_right_inj _).1 h]
    · have hapart : Apart ("duplicate " ++ kind'.noun ++ " declaration: ")
          ("duplicate " ++ kind.noun ++ " declaration: ") := by
        cases kind' <;> cases kind <;> first | exact absurd rfl hkind | decide
      exact absurd h (hapart.append_ne _ _)
  | _ => exact absurd hinitial (by simp)

theorem eq_of_duplicate (hw : c.StandsOn w) (kind : NameKind) {x : String}
    (h : c.message = "duplicate " ++ kind.noun ++ " declaration: " ++ x) :
    w = kind.sigil :: x.toList := by
  rw [eq_duplicate hw kind h] at hw
  exact hw

/-- A label out of its place is told from the two other messages about labels. -/
theorem eq_of_misplacedSpecial (hw : c.StandsOn w) {m : Special}
    (h : c.message = m.name ++ " is only valid on IS lines") : w = m.name.toList := by
  have hinitial : c.initial? = some '/' := by
    refine initial?_eq_some hw ?_ (by decide) (by decide)
    rw [h]
    exact head?_toList_append (by cases m <;> exact head?_literal _ _)
  cases c with
  | nothingToRepeat => exact absurd h (by cases m <;> decide)
  | noTimeLimit => exact absurd h (by cases m <;> decide)
  | misplacedSpecial label =>
    rw [← (String.append_left_inj _).1 h]
    exact hw.1
  | _ => exact absurd hinitial (by simp)

theorem eq_of_metaDeclared (hw : c.StandsOn w) {x : String}
    (h : c.message = "@^" ++ x ++ " cannot be used in a PAGE declaration") :
    w = ("@^" ++ x).toList := by
  have hinitial : c.initial? = some '@' := by
    refine initial?_eq_some hw ?_ (by decide) (by decide)
    rw [h]
    exact head?_toList_append (head?_toList_append (head?_literal _ _))
  cases c with
  | metaDeclared target =>
    rw [← (String.append_left_inj _).1 h]
    exact hw.1
  | _ => exact absurd hinitial (by simp)

/-- No other cause says what is said about a negation of nothing. -/
theorem danglingNegation_of_message (hw : c.StandsOn w)
    (h : c.message = "mode:not must be followed by a condition or effect") :
    c = danglingNegation := by
  have hinitial : c.initial? = some 'm' := by
    refine initial?_eq_some hw ?_ (by decide) (by decide)
    rw [h]
    exact head?_literal _ _
  cases c with
  | danglingNegation => rfl
  | _ => exact absurd hinitial (by simp)

theorem eq_of_danglingNegation (hw : c.StandsOn w)
    (h : c.message = "mode:not must be followed by a condition or effect") : w = negation := by
  obtain rfl := danglingNegation_of_message hw h
  exact hw

/-- What is said about keywords where they are named. -/
def namedPredicates : List String :=
  ["takes no arguments", "must follow ", "may only appear once",
    "requires a script name (\"text\")", "requires argument "]

/-- **A keyword that is named is told from a command** by what is said about it, and where the same
is said about commands, by the severity. -/
theorem eq_of_subject (hw : c.StandsOn w) {k : Keyword} {q x : String} (hq : q ∈ namedPredicates)
    (h : c.message = k.name ++ " " ++ (q ++ x))
    (hseverity : q = "requires argument " → c.severity = .error) : w = k.name.toList := by
  have hinitial : c.initial? = none := initial?_eq_none hw (by rw [h, String.append_assoc])
  rw [message_eq hinitial] at h
  obtain ⟨hsubject, hpredicate⟩ :=
    eq_of_append_space (notMem_subject hw (by decide)) (k.notMem_name (by decide)) h
  rw [← hsubject]
  cases c with
  | repeatedHeader => exact hw
  | missingName => exact hw
  | misplaced j follows => exact hw
  | takesNoArguments j => exact hw
  | missingArgument j place => exact hw
  | badArgument j place kind =>
    have hapart : ∀ q ∈ namedPredicates, Apart "only accepts time:" q := by decide
    exact absurd ((String.append_empty (s := _)).trans hpredicate) ((hapart q hq).append_ne "" x)
  | commandTakesAtMost command count =>
    have hapart : ∀ q ∈ namedPredicates, Apart "takes at most " q := by decide
    exact absurd hpredicate ((hapart q hq).append_ne _ _)
  | commandMissing command parameter =>
    by_cases hargument : q = "requires argument "
    · exact absurd (hseverity hargument) (by simp [severity])
    · have hapart : ∀ q ∈ namedPredicates, q ≠ "requires argument " →
          Apart "requires argument " q := by decide
      exact absurd hpredicate ((hapart q hq hargument).append_ne _ _)
  | commandArgumentShape =>
    have hapart : ∀ q ∈ namedPredicates,
        Apart "arguments must be a @page, $flag or \"text\"" q := by decide
    exact absurd ((String.append_empty (s := _)).trans hpredicate) ((hapart q hq).append_ne "" x)
  | _ => exact absurd hinitial (by simp)

/-- **A message that names a word names the one that its mark stands on.** -/
theorem eq_of_mentions (hw : c.StandsOn w) {x : String} (h : Mentions c.severity c.message x) :
    w = x.toList := by
  generalize hmessage : c.message = message at h
  generalize hseverity : c.severity = severity at h
  cases h with
  | undefinedPage s x =>
    rw [String.toList_append]
    exact eq_of_undeclared hw .page hmessage
  | duplicatePage s x =>
    rw [String.toList_append]
    exact eq_of_duplicate hw .page hmessage
  | undefinedFlag s x =>
    rw [String.toList_append]
    exact eq_of_undeclared hw .flag hmessage
  | duplicateFlag s x =>
    rw [String.toList_append]
    exact eq_of_duplicate hw .flag hmessage
  | undefinedCommand s x =>
    rw [String.toList_append]
    exact eq_of_unknownCommand hw hmessage
  | misplacedSpecial s m => exact eq_of_misplacedSpecial hw hmessage
  | metaDeclared s t => exact eq_of_metaDeclared hw hmessage
  | danglingNegation s => exact eq_of_danglingNegation hw hmessage
  | takesNoArguments s k =>
    refine eq_of_subject hw (q := "takes no arguments") (x := "") (by decide) ?_
      fun h => absurd h (by decide)
    rw [hmessage, String.append_assoc]
    rfl
  | mustFollow s k x =>
    refine eq_of_subject hw (q := "must follow ") (x := x) (by decide) ?_
      fun h => absurd h (by decide)
    have hspace : " must follow " = " " ++ "must follow " := rfl
    rw [hmessage, hspace]
    simp only [String.append_assoc]
  | repeatedHeader s =>
    refine eq_of_subject hw (k := .define) (q := "may only appear once") (x := "") (by decide) ?_
      fun h => absurd h (by decide)
    rw [hmessage]
    rfl
  | missingName =>
    refine eq_of_subject hw (k := .define) (q := "requires a script name (\"text\")") (x := "")
      (by decide) ?_ fun _ => hseverity
    rw [hmessage]
    rfl
  | missingArgument k x =>
    refine eq_of_subject hw (q := "requires argument ") (x := x) (by decide) ?_ fun _ => hseverity
    have hspace : " requires argument " = " " ++ "requires argument " := rfl
    rw [hmessage, hspace]
    simp only [String.append_assoc]

end Cause

/-! ## Reports -/

/-- No message that names a word opens as the one about the first line does. -/
theorem Mentions.head?_ne {s : Severity} {message x : String} (h : Mentions s message x) :
    message.toList.head? ≠ some 'l' := by
  have hne : ∀ {a : String} {c : Char}, a.toList.head? = some c → c ≠ 'l' →
      a.toList.head? ≠ some 'l' :=
    fun ha hc hl => hc (Option.some.inj (ha.symm.trans hl))
  have hkeyword : ∀ (k : Keyword) (y : String), (k.name ++ y).toList.head? ≠ some 'l' := by
    intro k y
    obtain ⟨c, hc, hupper⟩ := k.exists_head?_name
    refine hne (head?_toList_append hc) ?_
    rintro rfl
    exact absurd hupper (by decide)
  cases h with
  | undefinedPage s x => exact hne (head?_toList_append (head?_literal _ _)) (by decide)
  | duplicatePage s x => exact hne (head?_toList_append (head?_literal _ _)) (by decide)
  | undefinedFlag s x => exact hne (head?_toList_append (head?_literal _ _)) (by decide)
  | duplicateFlag s x => exact hne (head?_toList_append (head?_literal _ _)) (by decide)
  | undefinedCommand s x => exact hne (head?_toList_append (head?_literal _ _)) (by decide)
  | misplacedSpecial s m =>
    cases m <;> exact hne (head?_toList_append (head?_literal _ _)) (by decide)
  | metaDeclared s t =>
    exact hne (head?_toList_append (head?_toList_append (head?_literal _ _))) (by decide)
  | danglingNegation s => exact hne (head?_literal _ _) (by decide)
  | takesNoArguments s k => exact hkeyword k _
  | mustFollow s k x =>
    rw [String.append_assoc]
    exact hkeyword k _
  | repeatedHeader s => exact hne (head?_literal _ _) (by decide)
  | missingName => exact hne (head?_literal _ _) (by decide)
  | missingArgument k x =>
    rw [String.append_assoc]
    exact hkeyword k _

/-- **The word that a message names stands between the columns of the diagnostic.** -/
theorem select_of_mentions (catalog : Catalog) (text : String) :
    ∀ d ∈ diagnostics catalog text, ∀ w, Mentions d.severity d.message w →
      1 ≤ d.line ∧ ∃ raw, (lines text.toList)[d.line - 1]? = some raw ∧
        Columns.Fits raw ⟨d.startColumn, d.endColumn⟩ ∧
          Columns.select raw ⟨d.startColumn, d.endColumn⟩ = w.toList := by
  intro d hd w hmentions
  rcases exists_of_mem_diagnostics hd with
    hheader | ⟨raw, v, cause, hline, hraw, hfits, hselect, hstands, hmessage, hseverity⟩
  · rw [hheader] at hmentions
    exact absurd (head?_literal _ _) hmentions.head?_ne
  · rw [hmessage, hseverity] at hmentions
    have hword := Cause.eq_of_mentions hstands hmentions
    obtain ⟨r, hr⟩ : ∃ r, raw = chop '\r' raw ++ r := by
      rcases exists_chop_append '\r' raw with h | h
      · exact ⟨[], by rw [List.append_nil]; exact h⟩
      · exact ⟨['\r'], h⟩
    refine ⟨hline, raw, hraw, ?_, ?_⟩
    · rw [hr]
      exact hfits.append r
    · rw [hr, hfits.select_append, hselect, hword]

/-- The page that is not declared, and the option behind no menu, are where the columns say. -/
theorem select_of_mentions_wegText :
    (∃ raw, (lines wegText.toList)[2]? = some raw ∧
      Columns.select raw ⟨10, 14⟩ = "@weg".toList) ∧
    ∃ raw, (lines wegText.toList)[2]? = some raw ∧ Columns.select raw ⟨3, 5⟩ = "IS".toList := by
  have hselect := select_of_mentions .empty wegText
  rw [diagnostics_wegText.2] at hselect
  obtain ⟨-, raw, hraw, -, hpage⟩ :=
    hselect ⟨3, 10, 14, "undefined page: weg", .error⟩ (by simp) "@weg"
      (.undefinedPage .error "weg")
  obtain ⟨-, raw', hraw', -, hkeyword⟩ :=
    hselect ⟨3, 3, 5, "IS must follow CHOICE or IS", .error⟩ (by simp) "IS"
      (.mustFollow .error .is "CHOICE or IS")
  exact ⟨⟨raw, hraw, hpage⟩, raw', hraw', hkeyword⟩

end Gamebook
