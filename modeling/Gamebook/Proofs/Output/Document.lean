import Gamebook.Output.Document
import Gamebook.Proofs.Json.Injective

/-!
Gamebook.Proofs.Output.Document — documents keep all that they are written for.

A document is a plain value (`Script.plain_json`), so it is read back as that value as soon as its
numbers fit in 64 bits, and no other value has the same document. That leaves the step from scripts
to values: fields stand at fixed places, and names of kinds are different, so two scripts with one
value are the same script (`Script.json_inj`), and likewise for diagnostics.

`documents_lossless` puts both together. The numbers of errors and warnings in a document are those
that its own list of diagnostics shows, whatever the list. Each diagnostic has one severity, so the
counts of all severities make up the list (`Diagnostic.foldr_count_all`).
-/

namespace Gamebook

open Json (Plain IsPlain)

/-! ## Names of kinds -/

theorem ConditionPolarity.tag_inj {p q : ConditionPolarity} (h : p.tag = q.tag) : p = q := by
  revert h
  cases p <;> cases q <;> decide

theorem EffectPolarity.tag_inj {p q : EffectPolarity} (h : p.tag = q.tag) : p = q := by
  revert h
  cases p <;> cases q <;> decide

theorem MessageKind.tag_inj {k l : MessageKind} (h : k.tag = l.tag) : k = l := by
  revert h
  cases k <;> cases l <;> decide

theorem PageEndMode.tag_inj {m n : PageEndMode} (h : m.tag = n.tag) : m = n := by
  revert h
  cases m <;> cases n <;> decide

theorem TimeLimit.name_inj {s t : TimeLimit} (h : s.name = t.name) : s = t := by
  revert h
  cases s <;> cases t <;> decide

theorem Severity.name_inj {s t : Severity} (h : s.name = t.name) : s = t := by
  revert h
  cases s <;> cases t <;> decide

/-! ## Different scripts have different values -/

theorem Json.strs_inj {ss ts : List String} (h : Json.strs ss = Json.strs ts) : ss = ts :=
  (List.map_inj_right fun _ _ h => Json.str.inj h).1 (Json.arr.inj h)

theorem Json.optional_inj {s t : Option String} (h : Json.optional s = Json.optional t) :
    s = t := by
  cases s <;> cases t <;> simp_all [Json.optional]

theorem Condition.json_inj {c d : Condition} (h : c.json = d.json) : c = d := by
  obtain ⟨p, fs⟩ := c
  obtain ⟨q, gs⟩ := d
  simp only [Condition.json, Json.obj.injEq, List.cons.injEq, Prod.mk.injEq, Json.str.injEq,
    true_and, and_true] at h
  rw [ConditionPolarity.tag_inj h.1, Json.strs_inj h.2]

theorem Effect.json_inj {e f : Effect} (h : e.json = f.json) : e = f := by
  obtain ⟨p, fs⟩ := e
  obtain ⟨q, gs⟩ := f
  simp only [Effect.json, Json.obj.injEq, List.cons.injEq, Prod.mk.injEq, Json.str.injEq,
    true_and, and_true] at h
  rw [EffectPolarity.tag_inj h.1, Json.strs_inj h.2]

theorem Destination.json_inj {d e : Destination} (h : d.json = e.json) : d = e := by
  cases d <;> cases e <;> simp_all [Destination.json]

theorem Transition.members_inj {t u : Transition} (h : t.members = u.members) : t = u := by
  obtain ⟨d, cs, es⟩ := t
  obtain ⟨d', cs', es'⟩ := u
  simp only [Transition.members, List.cons.injEq, Prod.mk.injEq, Json.arr.injEq, true_and,
    and_true] at h
  obtain ⟨hd, hcs, hes⟩ := h
  rw [Destination.json_inj hd, (List.map_inj_right fun _ _ => Condition.json_inj).1 hcs,
    (List.map_inj_right fun _ _ => Effect.json_inj).1 hes]

theorem ChoiceOption.json_inj {o p : ChoiceOption} (h : o.json = p.json) : o = p := by
  obtain ⟨text, cancel, timeout, t⟩ := o
  obtain ⟨text', cancel', timeout', t'⟩ := p
  simp only [ChoiceOption.json, Json.obj.injEq, List.cons_append, List.nil_append, List.cons.injEq,
    Prod.mk.injEq, Json.bool.injEq, true_and] at h
  obtain ⟨htext, hcancel, htimeout, ht⟩ := h
  rw [Json.optional_inj htext, hcancel, htimeout, Transition.members_inj ht]

/-- The first member tells the kind of a command, and the others its contents. -/
theorem Command.json_inj {c d : Command} (h : c.json = d.json) : c = d := by
  cases c <;> cases d <;>
    simp only [Command.json, Json.obj.injEq, List.cons.injEq, Prod.mk.injEq, Json.str.injEq,
      true_and, and_true, Json.arr.injEq, String.reduceEq, false_and, Json.nat, Json.num.injEq,
      JsonNumber.int.injEq, Int.natCast_inj, and_false] at h
  case textLine.textLine =>
    rw [MessageKind.tag_inj h.1, (List.map_inj_right fun _ _ => Condition.json_inj).1 h.2.1, h.2.2]
  case choice.choice =>
    have htime := Json.optional_inj h.1
    rw [(Option.map_inj_right fun _ _ => TimeLimit.name_inj).1 htime,
      (List.map_inj_right fun _ _ => ChoiceOption.json_inj).1 h.2]
  case goto.goto => rw [Transition.members_inj h]
  case exec.exec => rw [h.1, Json.strs_inj h.2]
  case pageEnd.pageEnd => rw [PageEndMode.tag_inj h]
  case broken.broken => rw [h.1, h.2]

theorem Page.member_inj {p q : Page} (h : p.member = q.member) : p = q := by
  obtain ⟨name, commands⟩ := p
  obtain ⟨name', commands'⟩ := q
  simp only [Page.member, Prod.mk.injEq, Json.obj.injEq, List.cons.injEq, Json.arr.injEq, true_and,
    and_true] at h
  rw [h.1, (List.map_inj_right fun _ _ => Command.json_inj).1 h.2]

theorem Script.json_inj {s t : Script} (h : s.json = t.json) : s = t := by
  obtain ⟨name, pageNames, flagNames, pages⟩ := s
  obtain ⟨name', pageNames', flagNames', pages'⟩ := t
  simp only [Script.json, Json.obj.injEq, List.cons.injEq, Prod.mk.injEq, Json.str.injEq, true_and,
    and_true] at h
  obtain ⟨hname, hpages, hflags, hmembers⟩ := h
  rw [hname, Json.strs_inj hpages, Json.strs_inj hflags,
    (List.map_inj_right fun _ _ => Page.member_inj).1 hmembers]

theorem Diagnostic.json_inj {d e : Diagnostic} (h : d.json = e.json) : d = e := by
  obtain ⟨line, start, stop, message, severity⟩ := d
  obtain ⟨line', start', stop', message', severity'⟩ := e
  simp only [Diagnostic.json, Json.obj.injEq, List.cons.injEq, Prod.mk.injEq, Json.str.injEq,
    Json.nat, Json.num.injEq, JsonNumber.int.injEq, Int.natCast_inj, true_and, and_true] at h
  obtain ⟨hline, hstart, hstop, hmessage, hseverity⟩ := h
  rw [hline, hstart, hstop, hmessage, Severity.name_inj hseverity]

theorem Output.diagnosticsJson_inj {file file' : String} {ds es : List Diagnostic}
    (h : diagnosticsJson file ds = diagnosticsJson file' es) : file = file' ∧ ds = es := by
  simp only [diagnosticsJson, Json.obj.injEq, List.cons.injEq, Prod.mk.injEq, Json.str.injEq,
    Json.arr.injEq, true_and, and_true] at h
  exact ⟨h.1, (List.map_inj_right fun _ _ => Diagnostic.json_inj).1 h.2.2.2⟩

/-! ## Scripts and diagnostics are plain values -/

section Plain

variable {ok : Nat → Prop} (d : Nat)

theorem Json.plain_map {α : Type} {f : α → Json} {xs : List α} {d : Nat}
    (h : ∀ x ∈ xs, Plain ok d (f x)) : Plain ok (d + 1) (.arr (xs.map f)) := by
  refine .arr fun v hv => ?_
  obtain ⟨x, hx, rfl⟩ := List.mem_map.1 hv
  exact h x hx

theorem Json.plain_strs (ss : List String) : Plain ok (d + 1) (Json.strs ss) :=
  plain_map fun _ _ => .str _

theorem Json.plain_nat {n : Nat} (h : ok n) : Plain ok d (Json.nat n) := .nat h

theorem Json.plain_optional (s : Option String) : Plain ok d (Json.optional s) := by
  cases s
  · exact .null
  · exact .str _

theorem Condition.plain_json (c : Condition) : Plain ok (d + 2) c.json :=
  .obj (by simp [Plain.str, Json.plain_strs])

theorem Effect.plain_json (e : Effect) : Plain ok (d + 2) e.json :=
  .obj (by simp [Plain.str, Json.plain_strs])

theorem Destination.plain_json (t : Destination) : Plain ok (d + 1) t.json := by
  cases t <;> exact .obj (by simp [Plain.str])

theorem Transition.plain_members (t : Transition) : ∀ m ∈ t.members, Plain ok (d + 3) m.2 := by
  simp [members, Destination.plain_json, Json.plain_map, Condition.plain_json, Effect.plain_json]

theorem ChoiceOption.plain_json (o : ChoiceOption) : Plain ok (d + 4) o.json :=
  .obj (List.forall_mem_append.2
    ⟨by simp [Json.plain_optional, Plain.bool], o.transition.plain_members d⟩)

/-- A command holds no number but that of a broken line. -/
theorem Command.plain_json {c : Command} (h : ∀ line source, c = .broken line source → ok line) :
    Plain ok (d + 6) c.json := by
  cases c with
  | textLine kind conditions text =>
    exact .obj (by simp [Plain.str, Json.plain_map, Condition.plain_json])
  | choice time options =>
    exact .obj (by
      simp [Plain.str, Json.plain_optional, Json.plain_map, ChoiceOption.plain_json])
  | goto t => exact .obj (List.forall_mem_cons.2 ⟨.str _, t.plain_members (d + 2)⟩)
  | exec name args => exact .obj (by simp [Plain.str, Json.plain_strs])
  | pageEnd mode => exact .obj (by simp [Plain.str])
  | broken line source => exact .obj (by simp [Plain.str, Json.plain_nat, h line source rfl])

/-- A script holds no numbers but those of its broken lines. -/
theorem Script.plain_json {s : Script} (h : ∀ b ∈ s.brokenLines, ok b.line) :
    Plain ok (d + 10) s.json := by
  have hpage : ∀ p ∈ s.pages, Plain ok (d + 8) p.member.2 := by
    intro p hp
    have hcommand : ∀ c ∈ p.commands, Plain ok (d + 6) c.json := by
      intro c hc
      refine c.plain_json d ?_
      rintro line source rfl
      have hbroken : (⟨p.name, line, source⟩ : BrokenLine) ∈ p.brokenLines :=
        List.mem_filterMap.2 ⟨_, hc, rfl⟩
      exact h _ (List.mem_flatMap.2 ⟨p, hp, hbroken⟩)
    exact .obj (by simp [Json.plain_map hcommand])
  have hpages : Plain ok (d + 9) (.obj (s.pages.map Page.member)) := by
    refine .obj fun m hm => ?_
    obtain ⟨p, hp, rfl⟩ := List.mem_map.1 hm
    exact hpage p hp
  exact .obj (by simp [Plain.str, Json.plain_strs, hpages])

/-- A diagnostic holds three numbers. -/
theorem Diagnostic.plain_json {x : Diagnostic}
    (h : ok x.line ∧ ok x.startColumn ∧ ok x.endColumn) : Plain ok (d + 1) x.json :=
  .obj (by simp [Json.plain_nat, Plain.str, h])

theorem Output.plain_diagnosticsJson (file : String) {ds : List Diagnostic}
    (h : ∀ x ∈ ds, ok x.line ∧ ok x.startColumn ∧ ok x.endColumn)
    (hcount : ∀ severity, ok (Diagnostic.count severity ds)) :
    Plain ok (d + 3) (diagnosticsJson file ds) := by
  have hds : Plain ok (d + 2) (.arr (ds.map Diagnostic.json)) :=
    Json.plain_map fun x hx => x.plain_json d (h x hx)
  exact .obj (by simp [Json.plain_nat, Plain.str, hcount, hds])

end Plain

/-! ## Documents -/

namespace Output

theorem scriptDocument_inj {s t : Script} (h : scriptDocument s = scriptDocument t) : s = t :=
  Script.json_inj (Json.document_inj ⟨10, s.plain_json 0 fun _ _ => trivial⟩
    ⟨10, t.plain_json 0 fun _ _ => trivial⟩ h)

theorem diagnosticsDocument_inj {file file' : String} {ds es : List Diagnostic}
    (h : diagnosticsDocument file ds = diagnosticsDocument file' es) : file = file' ∧ ds = es := by
  have hplain : ∀ (f : String) (xs : List Diagnostic), IsPlain (diagnosticsJson f xs) := fun f xs =>
    ⟨3, plain_diagnosticsJson 0 f (fun _ _ => ⟨trivial, trivial, trivial⟩) fun _ => trivial⟩
  exact diagnosticsJson_inj (Json.document_inj (hplain file ds) (hplain file' es) h)

end Output

/-- A script whose numbers fit in 64 bits is read back from its document. -/
theorem read_scriptDocument {s : Script} (h : ∀ b ∈ s.brokenLines, Json.Number.Fits b.line) :
    Json.read (Output.scriptDocument s) = .ok s.json :=
  Json.read_document (s.plain_json 117 h)

/-- The numbers of a diagnostic fit in 64 bits. -/
def Diagnostic.Fits (d : Diagnostic) : Prop :=
  Json.Number.Fits d.line ∧ Json.Number.Fits d.startColumn ∧ Json.Number.Fits d.endColumn

/-- Diagnostics whose numbers fit in 64 bits are read back from their document. -/
theorem read_diagnosticsDocument (file : String) {ds : List Diagnostic} (h : ∀ d ∈ ds, d.Fits)
    (hlength : Json.Number.Fits ds.length) :
    Json.read (Output.diagnosticsDocument file ds) = .ok (Output.diagnosticsJson file ds) :=
  Json.read_document (Output.plain_diagnosticsJson 124 file h fun _ =>
    Nat.le_trans List.countP_le_length hlength)

/-- **Every diagnostic is counted once**: the counts of all severities make up the list. -/
theorem Diagnostic.foldr_count_all (ds : List Diagnostic) :
    Severity.all.foldr (fun severity n => count severity ds + n) 0 = ds.length := by
  induction ds with
  | nil => rfl
  | cons d ds ih =>
    have hcons : ∀ severity, count severity (d :: ds) =
        count severity ds + if d.severity = severity then 1 else 0 := by
      intro severity
      rw [count, List.countP_cons]
      simp only [decide_eq_true_eq, count]
    simp only [Severity.all, List.foldr_cons, List.foldr_nil, hcons] at ih ⊢
    rw [List.length_cons, ← ih]
    cases d.severity <;> simp <;> omega

/-- How many diagnostics of a list in a document say that they have this severity. -/
def Severity.countIn (severity : Severity) (items : List Json) : Nat :=
  items.countP fun v => (v.field? "severity").bind Json.string? = some severity.name

theorem Severity.countIn_map_json (severity : Severity) (ds : List Diagnostic) :
    severity.countIn (ds.map Diagnostic.json) = Diagnostic.count severity ds := by
  rw [countIn, List.countP_map, Diagnostic.count]
  refine List.countP_congr fun x _ => ?_
  have hname : (x.json.field? "severity").bind Json.string? = some x.severity.name := rfl
  simp only [Function.comp_apply, hname, Option.some.injEq, decide_eq_true_eq]
  exact ⟨name_inj, fun h => by rw [h]⟩

/-- **Documents lose nothing.** The document for a script is one JSON document, and no other script
has the same one. The document for the diagnostics of a file is one JSON document, no other file and
diagnostics have the same one, and it counts the errors and warnings that stand in its own list. -/
theorem documents_lossless :
    (∀ s : Script, (∀ b ∈ s.brokenLines, Json.Number.Fits b.line) →
      Json.read (Output.scriptDocument s) = .ok s.json) ∧
    (∀ s t : Script, Output.scriptDocument s = Output.scriptDocument t ↔ s = t) ∧
    (∀ (file : String) (ds : List Diagnostic),
      (∀ d ∈ ds, d.Fits) → Json.Number.Fits ds.length →
        ∃ (v : Json) (items : List Json), Json.read (Output.diagnosticsDocument file ds) = .ok v ∧
          v.field? "diagnostics" = some (.arr items) ∧ items = ds.map Diagnostic.json ∧
          v.field? "errors" = some (.nat (Severity.error.countIn items)) ∧
          v.field? "warnings" = some (.nat (Severity.warning.countIn items))) ∧
    ∀ (file file' : String) (ds es : List Diagnostic),
      Output.diagnosticsDocument file ds = Output.diagnosticsDocument file' es ↔
        file = file' ∧ ds = es := by
  refine ⟨fun s h => read_scriptDocument h, ?_, ?_, ?_⟩
  · exact fun s t => ⟨Output.scriptDocument_inj, fun h => by rw [h]⟩
  · intro file ds h hlength
    refine ⟨_, _, read_diagnosticsDocument file h hlength, rfl, rfl, ?_, ?_⟩
    · rw [Severity.countIn_map_json]
      rfl
    · rw [Severity.countIn_map_json]
      rfl
  · exact fun file file' ds es =>
      ⟨Output.diagnosticsDocument_inj, fun ⟨hfile, hds⟩ => by rw [hfile, hds]⟩

/-- A page with a broken line, and texts that look like the ends of strings. -/
def brokenScript : Script :=
  ⟨"\"\x7d", ["a"], [], [⟨"a", [.textLine .start [] "\\\",\n\x07", .broken 4 "TO"]⟩]⟩

/-- Two findings about it. -/
def brokenDiagnostics : List Diagnostic :=
  [⟨4, 1, 3, "TO requires argument 1", .error⟩, ⟨1, 1, 2, "\"", .hint⟩]

theorem documents_lossless_brokenScript :
    ((∀ b ∈ brokenScript.brokenLines, Json.Number.Fits b.line) ∧
      Json.read (Output.scriptDocument brokenScript) = .ok brokenScript.json) ∧
    ((∀ d ∈ brokenDiagnostics, d.Fits) ∧ Json.Number.Fits brokenDiagnostics.length ∧
      ∃ v : Json, Json.read (Output.diagnosticsDocument "a.gbs" brokenDiagnostics) = .ok v ∧
        v.field? "errors" = some (.nat 1) ∧ v.field? "warnings" = some (.nat 0)) := by
  have hfits : ∀ n ≤ 4, Json.Number.Fits n := fun n hn => Nat.le_trans hn (by decide)
  have hscript : ∀ b ∈ brokenScript.brokenLines, Json.Number.Fits b.line := by
    intro b hb
    rw [List.mem_singleton.1 hb]
    exact hfits 4 (Nat.le_refl 4)
  have hdiagnostics : ∀ d ∈ brokenDiagnostics, d.Fits := by
    intro d hd
    simp only [brokenDiagnostics, List.mem_cons, List.not_mem_nil, or_false] at hd
    rcases hd with rfl | rfl
    · exact ⟨hfits 4 (by decide), hfits 1 (by decide), hfits 3 (by decide)⟩
    · exact ⟨hfits 1 (by decide), hfits 1 (by decide), hfits 2 (by decide)⟩
  obtain ⟨v, _, hread, -, rfl, herrors, hwarnings⟩ :=
    documents_lossless.2.2.1 "a.gbs" brokenDiagnostics hdiagnostics (hfits 2 (by decide))
  exact ⟨⟨hscript, documents_lossless.1 brokenScript hscript⟩, hdiagnostics,
    hfits 2 (by decide), v, hread, herrors, hwarnings⟩

end Gamebook
