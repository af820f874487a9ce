import Gamebook.Proofs.Place.Mark

/-!
Gamebook.Proofs.Check.Accepted — what can be relied on in an accepted text.

* `markKeyword_mem_argumentMarks`, `markSegment_bad_mem_argumentMarks`: what the rule of a keyword
  asks for and is not there gets a mark.
* `Accepted.severity_ne`: no mark on the text is an error.
* `Accepted.exists_argument`, `Accepted.exists_spec`: behind every keyword the required arguments
  are there, and each argument has the shape that its rule asks for.
* `Accepted.page_of_shows`, `Accepted.flag_of_shows`: what shows as a page or as a flag on a line of
  code is declared somewhere in the text.
* `mem_declaredNames`: where a name was declared.
-/

namespace Gamebook

open Text

/-! ## Declarations -/

/-- Which keyword declares the names of a kind. -/
def NameKind.keyword : NameKind → Keyword
  | page => .page
  | flag => .flag

theorem exists_of_mem_declarations {line : Line} {d : Declaration} (h : d ∈ line.declarations) :
    line.keyword? = some d.kind.keyword ∧
      ∃ a ∈ line.arguments d.kind.keyword, (d.kind = .page → a ∈ (line.arguments .page).head?) ∧
        ∃ name, declaredName? d.kind a.text = some name ∧ d.name = String.ofList name := by
  have hargument : ∀ {kind : NameKind} {a : Segment},
      Declaration.ofArgument? line kind a = some d → d.kind = kind ∧
        ∃ name, declaredName? kind a.text = some name ∧ d.name = String.ofList name := by
    intro kind a ha
    obtain ⟨name, hname, rfl⟩ := Option.map_eq_some_iff.1 ha
    exact ⟨rfl, name, hname, rfl⟩
  unfold Line.declarations at h
  split at h
  next hk =>
    obtain ⟨a, ha, hd⟩ := List.mem_filterMap.1 h
    obtain ⟨hkind, hname⟩ := hargument hd
    have hhead : a ∈ (line.arguments .page).head? := by
      cases hargs : line.arguments .page with
      | nil => rw [hargs] at ha; exact absurd ha (by simp)
      | cons b bs =>
        rw [hargs] at ha
        rw [List.mem_singleton.1 ha]
        rfl
    rw [hkind]
    exact ⟨hk, a, List.mem_of_mem_take ha, fun _ => hhead, hname⟩
  next hk =>
    obtain ⟨a, ha, hd⟩ := List.mem_filterMap.1 h
    obtain ⟨hkind, hname⟩ := hargument hd
    rw [hkind]
    exact ⟨hk, a, ha, fun hp => absurd hp (by decide), hname⟩
  next => exact absurd h (by simp)

theorem mem_declaredNames {kind : NameKind} {lines : List Line} {name : String} :
    name ∈ declaredNames kind (declarations lines) ↔
      ∃ line ∈ lines, ∃ d ∈ line.declarations, d.kind = kind ∧ d.name = name := by
  rw [declaredNames, List.mem_filterMap]
  constructor
  · rintro ⟨d, hd, h⟩
    obtain ⟨line, hline, hmem⟩ := List.mem_flatMap.1 hd
    split at h
    next hkind => exact ⟨line, hline, d, hmem, hkind, Option.some.inj h⟩
    next => exact absurd h (by simp)
  · rintro ⟨line, hline, d, hmem, hkind, rfl⟩
    exact ⟨d, List.mem_flatMap.2 ⟨line, hline, hmem⟩, by rw [if_pos hkind]⟩

/-! ## Marks on a text -/

section

variable {catalog : Catalog} {text : String} {n : Nat} {raw : List Char}

/-- The marks on a line of the text are among all marks. -/
theorem exists_checkState (catalog : Catalog) (hmem : (n, raw) ∈ numberedLines text.toList) :
    ∃ s, ∀ m ∈ lineMarks (Declared.ofLines catalog (Line.ofText text.toList)) s (Line.ofRaw n raw),
      m ∈ allMarks catalog (Line.ofText text.toList) := by
  have hline : Line.ofRaw n raw ∈ Line.ofText text.toList := Line.mem_ofText.2 ⟨n, raw, hmem, rfl⟩
  obtain ⟨before, after, hsplit⟩ := List.append_of_mem hline
  exact ⟨_, fun m hm => mem_allMarks_of_mem_lineMarks hsplit hm⟩

/-- The marks on the arguments of a keyword are among all marks. -/
theorem mem_allMarks_of_mem_argumentMarks (hmem : (n, raw) ∈ numberedLines text.toList)
    {k : Keyword} (hk : (Line.ofRaw n raw).keyword? = some k) {m : Mark}
    (hm : m ∈ argumentMarks catalog (Line.ofRaw n raw) k) :
    m ∈ allMarks catalog (Line.ofText text.toList) := by
  obtain ⟨s, hs⟩ := exists_checkState catalog hmem
  have hkeyword : m ∈ keywordMarks (Declared.ofLines catalog (Line.ofText text.toList)) s
      (Line.ofRaw n raw) := by
    rw [keywordMarks, hk]
    exact List.mem_append_left _ (List.mem_append_right _ hm)
  refine hs m ?_
  rw [lineMarks, if_pos (Line.isCode_of_keyword? hk)]
  exact List.mem_append_left _ hkeyword

end

/-! ## Marks on arguments -/

section

variable (catalog : Catalog) {line : Line} {k : Keyword} {specs : List ArgSpec}

theorem argumentMarks_of_fixed (hspecs : k.rule.arity = .fixed specs) (hne : specs ≠ []) :
    argumentMarks catalog line k =
      missingMarks line k specs (line.arguments k) ++
        shapeMarks line k specs (line.arguments k) := by
  rw [argumentMarks, hspecs]
  show fixedArgumentMarks _ _ _ _ = _
  rw [fixedArgumentMarks, if_neg hne]

/-- **A required argument that is not there** is marked on the keyword. -/
theorem markKeyword_mem_argumentMarks (hspecs : k.rule.arity = .fixed specs) {i : Nat}
    {spec : ArgSpec} (hi : specs[i]? = some spec) (hrequired : spec.required = true)
    (hnone : (line.arguments k)[i]? = none) :
    line.markKeyword k (missingCause k i) ∈ argumentMarks catalog line k := by
  have hne : specs ≠ [] := by
    rintro rfl
    exact absurd hi (by simp)
  rw [argumentMarks_of_fixed catalog hspecs hne]
  refine List.mem_append_left _ (List.mem_filterMap.2 ⟨(spec, i), ?_, if_pos ⟨hrequired, ?_⟩⟩)
  · exact List.mk_mem_zipIdx_iff_getElem?.2 hi
  · exact List.getElem?_eq_none_iff.1 hnone

theorem severity_missingCause (k : Keyword) (i : Nat) : (missingCause k i).severity = .error := by
  unfold missingCause
  split <;> rfl

/-- **One argument too many** is marked. -/
theorem markSegment_tooMany_mem_argumentMarks (hspecs : k.rule.arity = .fixed specs)
    (hne : specs ≠ []) {i : Nat} {a : Segment} (hi : (line.arguments k)[i]? = some a)
    (hspec : specAt? specs i = none) :
    line.markSegment a (.tooManyArguments k) ∈ argumentMarks catalog line k := by
  rw [argumentMarks_of_fixed catalog hspecs hne]
  refine List.mem_append_right _
    (List.mem_filterMap.2 ⟨(a, i), List.mk_mem_zipIdx_iff_getElem?.2 hi, ?_⟩)
  simp only [hspec]

/-- **An argument of the wrong shape** is marked. -/
theorem markSegment_bad_mem_argumentMarks (hspecs : k.rule.arity = .fixed specs)
    (hne : specs ≠ []) {i : Nat} {a : Segment} (hi : (line.arguments k)[i]? = some a)
    {spec : ArgSpec} (hspec : specAt? specs i = some spec)
    (haccepts : ¬ spec.kind.accepts a.text = true) :
    line.markSegment a (.badArgument k (i + 1) spec.kind) ∈ argumentMarks catalog line k := by
  rw [argumentMarks_of_fixed catalog hspecs hne]
  refine List.mem_append_right _
    (List.mem_filterMap.2 ⟨(a, i), List.mk_mem_zipIdx_iff_getElem?.2 hi, ?_⟩)
  simp only [hspec, if_neg haccepts]

end

namespace Accepted

variable {catalog : Catalog} {text : String} {n : Nat} {raw : List Char}

/-! ## Marks -/

/-- **A mark on an accepted text is no error**, since each mark has its place in the report. -/
theorem severity_ne (h : Accepted catalog text) {m : Mark}
    (hm : m ∈ allMarks catalog (Line.ofText text.toList)) : m.cause.severity ≠ .error := by
  obtain ⟨d, hd, -, hseverity, -⟩ := exists_diagnostic_of_mem_allMarks hm
  rw [← hseverity]
  exact h d hd

/-! ## Arguments -/

/-- **The required arguments are there.** -/
theorem exists_argument (h : Accepted catalog text)
    (hmem : (n, raw) ∈ numberedLines text.toList) {k : Keyword}
    (hk : (Line.ofRaw n raw).keyword? = some k) {specs : List ArgSpec}
    (hspecs : k.rule.arity = .fixed specs) {i : Nat} {spec : ArgSpec} (hi : specs[i]? = some spec)
    (hrequired : spec.required = true) : ∃ a, ((Line.ofRaw n raw).arguments k)[i]? = some a := by
  cases hget : ((Line.ofRaw n raw).arguments k)[i]? with
  | some a => exact ⟨a, rfl⟩
  | none =>
    have hmark := markKeyword_mem_argumentMarks catalog hspecs hi hrequired hget
    exact absurd (severity_missingCause k i)
      (h.severity_ne (mem_allMarks_of_mem_argumentMarks hmem hk hmark))

/-- **Each argument has the shape that it should have.** -/
theorem exists_spec (h : Accepted catalog text)
    (hmem : (n, raw) ∈ numberedLines text.toList) {k : Keyword}
    (hk : (Line.ofRaw n raw).keyword? = some k) {specs : List ArgSpec}
    (hspecs : k.rule.arity = .fixed specs) (hne : specs ≠ []) {i : Nat} {a : Segment}
    (hi : ((Line.ofRaw n raw).arguments k)[i]? = some a) :
    ∃ spec, specAt? specs i = some spec ∧ spec.kind.accepts a.text = true := by
  cases hspec : specAt? specs i with
  | none =>
    have hmark := markSegment_tooMany_mem_argumentMarks catalog hspecs hne hi hspec
    exact absurd rfl (h.severity_ne (mem_allMarks_of_mem_argumentMarks hmem hk hmark))
  | some spec =>
    refine ⟨spec, rfl, ?_⟩
    by_contra haccepts
    have hmark := markSegment_bad_mem_argumentMarks catalog hspecs hne hi hspec haccepts
    exact absurd rfl (h.severity_ne (mem_allMarks_of_mem_argumentMarks hmem hk hmark))

/-! ## References -/

/-- Marks on what shows in the code of a line are no errors. -/
theorem severity_ne_of_mem_referenceMarks (h : Accepted catalog text)
    (hmem : (n, raw) ∈ numberedLines text.toList) (hcode : (Line.ofRaw n raw).isCode = true)
    {m : Mark}
    (hm : m ∈ referenceMarks (Declared.ofLines catalog (Line.ofText text.toList))
      (Line.ofRaw n raw)) : m.cause.severity ≠ .error := by
  obtain ⟨s, hs⟩ := exists_checkState catalog hmem
  have hline : m ∈ lineMarks (Declared.ofLines catalog (Line.ofText text.toList)) s
      (Line.ofRaw n raw) := by
    rw [lineMarks, if_pos hcode, codeMarks]
    simp only [List.mem_append]
    exact Or.inr (Or.inl (Or.inl (Or.inl hm)))
  exact h.severity_ne (hs m hline)

/-- **A page that shows is declared.** -/
theorem page_of_shows (h : Accepted catalog text) (hmem : (n, raw) ∈ numberedLines text.toList)
    (hcode : (Line.ofRaw n raw).isCode = true) (hk : (Line.ofRaw n raw).keyword? ≠ some .page)
    {name : List Char} (hne : name ≠ []) (hname : ∀ c ∈ name, isWordChar c = true)
    (hshows : (Line.ofRaw n raw).Shows ('@' :: name)) :
    String.ofList name ∈ declaredNames .page (declarations (Line.ofText text.toList)) := by
  obtain ⟨-, p', -, r', -, hcodeText, -, hr⟩ := hshows
  by_contra hundeclared
  have hhit : ⟨byteLength p', ['@'], name⟩ ∈ (Line.ofRaw n raw).hits .pageRef := by
    rw [Line.hits, hcodeText, List.append_assoc, List.cons_append]
    exact Pattern.mem_scan_pageRef p' hne hname hr
  have hmark : (Line.ofRaw n raw).markHit ⟨byteLength p', ['@'], name⟩
      (.undeclared .page (String.ofList name)) ∈
        referenceMarks (Declared.ofLines catalog (Line.ofText text.toList)) (Line.ofRaw n raw) := by
    refine List.mem_append_left _ (List.mem_append_left _ ?_)
    rw [if_neg hk]
    exact List.mem_filterMap.2 ⟨_, hhit, if_pos ⟨rfl, hundeclared⟩⟩
  exact absurd rfl (severity_ne_of_mem_referenceMarks h hmem hcode hmark)

/-- **A flag that shows is declared.** -/
theorem flag_of_shows (h : Accepted catalog text) (hmem : (n, raw) ∈ numberedLines text.toList)
    (hcode : (Line.ofRaw n raw).isCode = true) (hk : (Line.ofRaw n raw).keyword? ≠ some .flag)
    {name : List Char} (hne : name ≠ []) (hname : ∀ c ∈ name, isWordChar c = true)
    (hshows : (Line.ofRaw n raw).Shows ('$' :: name)) :
    String.ofList name ∈ declaredNames .flag (declarations (Line.ofText text.toList)) := by
  obtain ⟨-, p', -, r', -, hcodeText, -, hr⟩ := hshows
  by_contra hundeclared
  have hhit : ⟨byteLength p', ['$'], name⟩ ∈ (Line.ofRaw n raw).hits .flagRef := by
    rw [Line.hits, hcodeText, List.append_assoc, List.cons_append]
    exact Pattern.mem_scan_flagRef p' hne hname hr
  have hmark : (Line.ofRaw n raw).markHit ⟨byteLength p', ['$'], name⟩
      (.undeclared .flag (String.ofList name)) ∈
        referenceMarks (Declared.ofLines catalog (Line.ofText text.toList)) (Line.ofRaw n raw) := by
    refine List.mem_append_left _ (List.mem_append_right _ ?_)
    rw [if_neg hk]
    exact List.mem_filterMap.2 ⟨_, hhit, if_pos hundeclared⟩
  exact absurd rfl (severity_ne_of_mem_referenceMarks h hmem hcode hmark)

end Accepted

end Gamebook
