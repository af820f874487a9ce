import Gamebook.Proofs.Unread.Edit
import Gamebook.Proofs.Unread.Scan

/-!
Gamebook.Proofs.Unread.Line — an edited line looks as before.

All that the checks take from a line is its number, its keyword, the words behind it, the matches
of patterns in its code, and the words of its code. Two lines are alike (`Line.Alike`) if all this
is the same for both, up to the texts of literals, and stands in the same columns.

An edited line is the old one up to some character, and the keyword stands in front of it
(`sameOpening_append_cons`). What is behind differs from edit to edit: text behind a marker is no
code, a comment is cut, and the text of a literal is blanked. `LineEdit.alike` puts this together.
-/

namespace Gamebook

open Text

/-! ## The front of a line -/

/-- A keyword stands in front of any character that no keyword has. -/
theorem Keyword.leading?_append_cons {c : Char} (hc : c.isUpper = false) (u x x' : List Char) :
    leading? (u ++ c :: x) = leading? (u ++ c :: x') := by
  refine congrArg (all.find? ·) (funext fun k => ?_)
  have hk := k.notMem_letters hc
  rw [opens, opens, dropPrefix?_append_cons x u hk, dropPrefix?_append_cons x' u hk]
  cases dropPrefix? k.letters u with
  | none => rfl
  | some r => cases r <;> rfl

namespace Line

/-- The lines open with the same keyword, if with any, in the same columns. -/
structure SameOpening (line line' : Line) : Prop where
  /-- The numbers of the lines. -/
  number : line.number = line'.number
  /-- The keywords. -/
  keyword? : line.keyword? = line'.keyword?
  /-- What is asked of the first line. -/
  startsWith_define : startsWith Keyword.define.letters line.trimmed =
    startsWith Keyword.define.letters line'.trimmed
  /-- Where the keyword starts. -/
  indent : ∀ {k}, line.keyword? = some k → SamePlace line.raw line'.raw line.indent line'.indent
  /-- Where the keyword ends. -/
  behind : ∀ {k}, line.keyword? = some k → SamePlace line.raw line'.raw
    (line.indent + byteLength k.letters) (line'.indent + byteLength k.letters)

/-- The checks take the same from both lines, up to the texts of literals, in the same columns. -/
structure Alike (line line' : Line) : Prop extends SameOpening line line' where
  /-- Whether there is anything to check. -/
  isCode : line.isCode = line'.isCode
  /-- Whether they are text lines. -/
  isText : line.isText = line'.isText
  /-- The words behind the keyword. -/
  arguments : ∀ {k}, line.keyword? = some k → List.Forall₂ (Segment.Alike line.raw line'.raw)
    (line.arguments k) (line'.arguments k)
  /-- The matches of patterns. -/
  hits : ∀ p, List.Forall₂ (Hit.Alike line.raw line'.raw) (line.hits p) (line'.hits p)
  /-- The words of the code. -/
  words : List.Forall₂ (Segment.Alike line.raw line'.raw) (segments line.code)
    (segments line'.code)

theorem Alike.refl (line : Line) : line.Alike line where
  number := rfl
  keyword? := rfl
  startsWith_define := rfl
  indent _ := rfl
  behind _ := rfl
  isCode := rfl
  isText := rfl
  arguments _ := List.forall₂_same.2 fun _ _ => .of_stop_le (fun _ _ => rfl) (Nat.le_refl _)
  hits _ := List.forall₂_same.2 fun _ _ => .of_stop_le (fun _ _ => rfl) (Nat.le_refl _)
  words := List.forall₂_same.2 fun _ _ => .of_stop_le (fun _ _ => rfl) (Nat.le_refl _)

section Front

variable {n : Nat} {u q : List Char} {c : Char} {k : Keyword}

theorem trimmed_append_cons (hblank : isBlank c = false) (x : List Char) :
    (⟨n, u ++ c :: x⟩ : Line).trimmed = trimStart u ++ c :: trimEnd x :=
  trim_append_cons hblank u x

theorem indent_append_cons (hblank : isBlank c = false) (x : List Char) :
    (⟨n, u ++ c :: x⟩ : Line).indent = byteLength (u.takeWhile isBlank) := by
  rw [indent, takeWhile_append_cons hblank]

theorem isCode_append_cons (hblank : isBlank c = false) (x : List Char) :
    (⟨n, u ++ c :: x⟩ : Line).isCode = !startsWith ['/', '/'] (trimStart u ++ c :: trimEnd x) := by
  have hne : (trimStart u ++ c :: trimEnd x != []) = true := bne_iff_ne.2 (by simp)
  rw [isCode, trimmed_append_cons hblank, hne, Bool.true_and]

/-- The keyword stands in front of the character. -/
theorem exists_trimStart_eq_append (hblank : isBlank c = false) (hupper : c.isUpper = false)
    {x : List Char} (h : (⟨n, u ++ c :: x⟩ : Line).keyword? = some k) :
    ∃ q, trimStart u = k.letters ++ q := by
  obtain ⟨r, hr, -⟩ := Keyword.opens_iff.1 (Keyword.leading?_eq_some_iff.1 h)
  rw [trimmed_append_cons hblank] at hr
  obtain ⟨q, hq⟩ := prefix_of_prefix_append_cons (k.notMem_letters hupper) ⟨r, hr.symm⟩
  exact ⟨q, hq.symm⟩

/-- The front of a line: blanks, the keyword, and what stands between it and the character. -/
theorem eq_append_of_trimStart (h : trimStart u = k.letters ++ q) :
    u = u.takeWhile isBlank ++ k.letters ++ q := by
  rw [List.append_assoc, ← h]
  exact List.takeWhile_append_dropWhile.symm

theorem quote_notMem_front : '"' ∉ u.takeWhile isBlank ++ k.letters := by
  rw [List.mem_append, not_or]
  exact ⟨(allBlank_takeWhile u).quote_notMem, k.quote_notMem_letters⟩

theorem quotedAt_of_trimStart (h : trimStart u = k.letters ++ q) :
    quotedAt false q = quotedAt false u := by
  conv_rhs => rw [eq_append_of_trimStart h]
  rw [quotedAt_append, quotedAt_of_notMem quote_notMem_front]

theorem byteLength_of_trimStart (h : trimStart u = k.letters ++ q) :
    byteLength (u.takeWhile isBlank) + byteLength k.letters + byteLength q = byteLength u := by
  conv_rhs => rw [eq_append_of_trimStart h]
  rw [byteLength_append, byteLength_append]

theorem noComment_of_trimStart (h : trimStart u = k.letters ++ q) {s : List Char}
    (hfirst : NoComment (u ++ s)) : NoComment (q ++ s) := by
  rw [eq_append_of_trimStart h, List.append_assoc] at hfirst
  exact hfirst.of_append quote_notMem_front

/-- The words behind the keyword. -/
theorem arguments_append_cons (hblank : isBlank c = false) (h : trimStart u = k.letters ++ q)
    (x : List Char) :
    (⟨n, u ++ c :: x⟩ : Line).arguments k =
      segmentsAt (byteLength (u.takeWhile isBlank) + byteLength k.letters)
        (stripComment (q ++ c :: trimEnd x)) := by
  have htrim : (⟨n, u ++ c :: x⟩ : Line).trimmed = k.letters ++ (q ++ c :: trimEnd x) := by
    rw [trimmed_append_cons hblank, h, List.append_assoc]
  rw [arguments_eq htrim, indent_append_cons hblank]

/-- **Lines with the same front open in the same way.** -/
theorem sameOpening_append_cons (hblank : isBlank c = false) (hupper : c.isUpper = false)
    (x x' : List Char) : SameOpening ⟨n, u ++ c :: x⟩ ⟨n, u ++ c :: x'⟩ where
  number := rfl
  keyword? := by
    rw [keyword?, keyword?, trimmed_append_cons hblank, trimmed_append_cons hblank]
    exact Keyword.leading?_append_cons hupper _ _ _
  startsWith_define := by
    have hletters := Keyword.define.notMem_letters hupper
    rw [trimmed_append_cons hblank, trimmed_append_cons hblank, startsWith_append_cons hletters,
      startsWith_append_cons hletters]
  indent hk := by
    obtain ⟨q, hq⟩ := exists_trimStart_eq_append hblank hupper hk
    rw [indent_append_cons hblank, indent_append_cons hblank]
    refine samePlace_front _ _ ?_
    rw [← byteLength_of_trimStart hq]
    omega
  behind hk := by
    obtain ⟨q, hq⟩ := exists_trimStart_eq_append hblank hupper hk
    rw [indent_append_cons hblank, indent_append_cons hblank]
    refine samePlace_front _ _ ?_
    rw [← byteLength_of_trimStart hq]
    omega

end Front

/-! ## Messages -/

/-- **Messages do not count.** -/
theorem alike_message {pre : List Char} {ws : List Segment} (hrun : ClauseRun 0 pre ws) (n : Nat)
    (k : MessageKind) (post post' : List Char) :
    Alike ⟨n, pre ++ k.marker :: post⟩ ⟨n, pre ++ k.marker :: post'⟩ := by
  have hblank := Layout.isBlank_marker k
  have hupper : k.marker.isUpper = false := by cases k <;> decide
  have hslash : k.marker ∉ ['/', '/'] := by cases k <;> decide
  have htext : ∀ post, (layout? (pre ++ k.marker :: post)).isSome = true :=
    fun post => isSome_layout?_iff.2 ⟨k, pre, post, ws, rfl, hrun⟩
  have hplace : ∀ m ≤ byteLength (pre ++ [k.marker]),
      SamePlace (pre ++ k.marker :: post) (pre ++ k.marker :: post') m m := by
    intro m hm
    rw [List.append_cons, List.append_cons _ _ post']
    exact samePlace_front _ _ hm
  refine ⟨sameOpening_append_cons hblank hupper post post', ?_, ?_, ?_, ?_, ?_⟩
  · rw [isCode_append_cons hblank, isCode_append_cons hblank, startsWith_append_cons hslash,
      startsWith_append_cons hslash]
  · rw [isText, isText, htext, htext]
  · -- No text line has a keyword.
    intro j hj
    have hnone := htext post
    rw [layout?_raw_of_keyword? hj] at hnone
    exact absurd hnone (by decide)
  · intro p
    rw [hits, hits, code_of_clauseRun hrun rfl, code_of_clauseRun hrun rfl]
    exact Pattern.forall₂_scan_of_le hplace (Nat.le_refl _) p
  · rw [code_of_clauseRun hrun rfl, code_of_clauseRun hrun rfl]
    exact forall₂_segmentsAt_of_le hplace (by rw [Nat.zero_add])

/-! ## Comments -/

theorem layout?_eq_none_append_cons {c : Char} (hc : c = '"' ∨ c = '/') {u x x' : List Char}
    (h : layout? (u ++ c :: x) = none) : layout? (u ++ c :: x') = none := by
  rw [← Option.not_isSome_iff_eq_none, isSome_layout?_append_cons hc] at h ⊢
  exact h

/-- The first two characters decide whether a line is a comment. -/
theorem startsWith_slashes_append (v z : List Char) :
    startsWith ['/', '/'] (v ++ '/' :: '/' :: z) = startsWith ['/', '/'] (v ++ ['/', '/']) := by
  have hsplit : v ++ '/' :: '/' :: z = v ++ ['/', '/'] ++ z := by simp
  rw [hsplit, Bool.eq_iff_iff, startsWith_iff, startsWith_iff]
  constructor
  · rintro ⟨r, hr⟩
    obtain ⟨r', hr'⟩ := List.prefix_of_prefix_length_le ⟨r, hr.symm⟩ (List.prefix_append _ z)
      (by simp : ['/', '/'].length ≤ (v ++ ['/', '/']).length)
    exact ⟨r', hr'.symm⟩
  · rintro ⟨r, hr⟩
    exact ⟨r ++ z, by rw [hr, List.append_assoc]⟩

/-- **Comments do not count.** -/
theorem alike_comment {a w w' : List Char} (h : layout? (a ++ '/' :: '/' :: w) = none)
    (hquoted : quotedAt false a = false) (hfirst : NoComment (a ++ ['/'])) (n : Nat) :
    Alike ⟨n, a ++ '/' :: '/' :: w⟩ ⟨n, a ++ '/' :: '/' :: w'⟩ := by
  have hblank : isBlank '/' = false := by decide
  have hupper : '/'.isUpper = false := by decide
  have hplace : ∀ m ≤ byteLength a, SamePlace (a ++ '/' :: '/' :: w) (a ++ '/' :: '/' :: w') m m :=
    fun m hm => samePlace_front _ _ hm
  have hsize : byteLength (blankQuoted a) = byteLength a := byteLength_blankQuotedFrom false a
  have hcode : ∀ w, layout? (a ++ '/' :: '/' :: w) = none →
      (⟨n, a ++ '/' :: '/' :: w⟩ : Line).code = blankQuoted a := by
    intro w hw
    rw [code_of_layout?_eq_none hw, stripComment_comment hfirst hquoted]
  have hcode' := hcode w' (layout?_eq_none_append_cons (Or.inr rfl) h)
  refine ⟨sameOpening_append_cons hblank hupper _ _, ?_, ?_, ?_, ?_, ?_⟩
  · rw [isCode_append_cons hblank, isCode_append_cons hblank, trimEnd_cons hblank,
      trimEnd_cons hblank, startsWith_slashes_append _ (trimEnd w),
      startsWith_slashes_append _ (trimEnd w')]
  · rw [isText, isText, isSome_layout?_append_cons (Or.inr rfl),
      isSome_layout?_append_cons (Or.inr rfl)]
  · intro k hk
    obtain ⟨q, hq⟩ := exists_trimStart_eq_append hblank hupper hk
    have hstrip : ∀ w, stripComment (q ++ '/' :: trimEnd ('/' :: w)) = q := by
      intro w
      rw [trimEnd_cons hblank, stripComment_comment (noComment_of_trimStart hq hfirst)]
      rw [quotedAt_of_trimStart hq, hquoted]
    rw [arguments_append_cons hblank hq, arguments_append_cons hblank hq, hstrip, hstrip]
    exact forall₂_segmentsAt_of_le hplace (Nat.le_of_eq (byteLength_of_trimStart hq))
  · intro p
    rw [hits, hits, hcode w h, hcode']
    exact Pattern.forall₂_scan_of_le hplace (Nat.le_of_eq hsize) p
  · rw [hcode w h, hcode']
    exact forall₂_segmentsAt_of_le hplace (by rw [Nat.zero_add, hsize])

/-! ## Literals -/

/-- **The texts of literals do not count.** -/
theorem alike_literal {p t t' r : List Char} (h : layout? (p ++ '"' :: (t ++ '"' :: r)) = none)
    (hquoted : quotedAt false p = false) (hfirst : NoComment p) (ht : IsLiteralText t)
    (ht' : IsLiteralText t') (hlength : t.length = t'.length) (n : Nat) :
    Alike ⟨n, p ++ '"' :: (t ++ '"' :: r)⟩ ⟨n, p ++ '"' :: (t' ++ '"' :: r)⟩ := by
  have hblank : isBlank '"' = false := by decide
  have hupper : '"'.isUpper = false := by decide
  have hslash : '"' ∉ ['/', '/'] := by decide
  have hagree : Agree (p ++ '"' :: (t ++ '"' :: r)) (p ++ '"' :: (t' ++ '"' :: r))
      (byteLength p + 1) (byteLength t) (byteLength t') := by
    have happend := agree_append (p ++ ['"']) ('"' :: r) hlength
    have hquote : '"'.utf8Size = 1 := rfl
    simpa [hquote] using happend
  have hcode : ∀ t, IsLiteralText t → layout? (p ++ '"' :: (t ++ '"' :: r)) = none →
      (⟨n, p ++ '"' :: (t ++ '"' :: r)⟩ : Line).code = blankQuoted p ++
        '"' :: (List.replicate (byteLength t) ' ' ++ '"' :: blankQuoted (stripComment r)) := by
    intro t ht hnone
    rw [code_of_layout?_eq_none hnone, stripComment_literal hfirst hquoted ht.quote_notMem,
      blankQuoted_literal hquoted ht.quote_notMem]
    rfl
  have hcode' := hcode t' ht' (layout?_eq_none_append_cons (Or.inl rfl) h)
  have hsize : byteLength (blankQuoted p) + 1 = byteLength p + 1 := by
    rw [blankQuoted, byteLength_blankQuotedFrom]
  refine ⟨sameOpening_append_cons hblank hupper _ _, ?_, ?_, ?_, ?_, ?_⟩
  · rw [isCode_append_cons hblank, isCode_append_cons hblank, startsWith_append_cons hslash,
      startsWith_append_cons hslash]
  · rw [isText, isText, isSome_layout?_append_cons (Or.inl rfl),
      isSome_layout?_append_cons (Or.inl rfl)]
  · intro k hk
    obtain ⟨q, hq⟩ := exists_trimStart_eq_append hblank hupper hk
    have hqfirst : NoComment q := by
      have := noComment_of_trimStart (s := []) hq (by rwa [List.append_nil])
      rwa [List.append_nil] at this
    have hqquoted := (quotedAt_of_trimStart hq).trans hquoted
    have hstrip : ∀ {t : List Char}, '"' ∉ t →
        stripComment (q ++ '"' :: trimEnd (t ++ '"' :: r)) =
          q ++ '"' :: (t ++ '"' :: stripComment (trimEnd r)) := by
      intro t ht
      rw [trimEnd_append_cons hblank, stripComment_literal hqfirst hqquoted ht]
      rfl
    rw [arguments_append_cons hblank hq, arguments_append_cons hblank hq, hstrip ht.quote_notMem,
      hstrip ht'.quote_notMem]
    exact forall₂_segmentsAt_literal hagree ht ht' hqquoted
      (by rw [byteLength_of_trimStart hq]) _
  · intro pattern
    rw [hits, hits, hcode t ht h, hcode']
    exact Pattern.forall₂_scan_literal hagree hsize pattern _
  · have hblanked : ∀ m, IsLiteralText (List.replicate m ' ') := fun m =>
      ⟨notMem_spaces (by decide) m, notMem_spaces (by decide) m⟩
    rw [hcode t ht h, hcode', segments_eq, segments_eq]
    refine forall₂_segmentsAt_literal (b := byteLength p + 1) ?_ (hblanked _) (hblanked _)
      ((quotedAt_blankQuotedFrom p false).trans hquoted) (by rw [Nat.zero_add]; exact hsize) _
    rw [byteLength_replicate_space, byteLength_replicate_space]
    exact hagree

/-! ## All edits -/

end Line

/-- **An edited line looks as before.** -/
theorem LineEdit.alike {raw raw' : List Char} (h : LineEdit raw raw') (hline : '\n' ∉ raw)
    (hline' : '\n' ∉ raw') (n : Nat) : Line.Alike ⟨n, raw⟩ ⟨n, raw'⟩ := by
  cases h with
  | @message _ l hl w =>
    obtain ⟨pre, post, rfl, hrun, hmarker, -⟩ := layout?_eq_some_iff.1 hl
    rw [hmarker, Line.textBefore_marker, ← List.append_cons]
    exact Line.alike_message hrun n l.kind post w
  | comment w w' hl hquoted hfirst => exact Line.alike_comment hl hquoted hfirst n
  | @literal p t t' r hl hquoted hfirst ht ht' hlength =>
    have hsub : ∀ t, '\n' ∉ p ++ '"' :: (t ++ '"' :: r) → '\n' ∉ t := by
      intro t h hm
      exact h (by simp [hm])
    exact Line.alike_literal hl hquoted hfirst ⟨ht, hsub t hline⟩ ⟨ht', hsub t' hline'⟩ hlength n

end Gamebook
