import Gamebook.Proofs.Json.Number
import Gamebook.Proofs.Json.String

/-!
Gamebook.Proofs.Json.RoundTrip — documents are read as they are written.

Items of lists and members of objects are written alike: each on a line of its own, and behind each
a comma or the closing bracket on a line of its own (`block_eq`). So one reader's loop is enough to
follow, once for items (`readItems_inside`) and once for members (`readMembers_inside`): it takes
one piece after the other, because each piece can be read in front of whatever stands behind a
value (`EndsValue`).

`read_document` says that a document is read as the value that it was written for. This holds of
plain values: their numbers are natural numbers of 64 bits, and they are not too deep.
-/

namespace Gamebook.Json

/-! ## Plain values -/

/-- All numbers in the value are natural numbers with the property `ok`, and lists and objects stand
at most `depth` deep inside each other. -/
inductive Plain (ok : Nat → Prop) : Nat → Json → Prop
  /-- The null value. -/
  | null {depth : Nat} : Plain ok depth null
  /-- A truth value. -/
  | bool {depth : Nat} (b : Bool) : Plain ok depth (bool b)
  /-- A number. -/
  | nat {depth n : Nat} (h : ok n) : Plain ok depth (num (.int (.ofNat n)))
  /-- A string. -/
  | str {depth : Nat} (s : String) : Plain ok depth (str s)
  /-- A list. -/
  | arr {depth : Nat} {items : List Json} (h : ∀ v ∈ items, Plain ok depth v) :
      Plain ok (depth + 1) (arr items)
  /-- An object. -/
  | obj {depth : Nat} {members : List (String × Json)} (h : ∀ m ∈ members, Plain ok depth m.2) :
      Plain ok (depth + 1) (obj members)

/-! ## Pieces between brackets -/

/-- A member of an object. -/
def memberText (indent : Nat) (m : String × Json) : List Char :=
  stringText m.1 ++ ':' :: ' ' :: valueText indent m.2

theorem itemTexts_eq_map (indent : Nat) (items : List Json) :
    itemTexts indent items = items.map (valueText indent) := by
  induction items with
  | nil => simp [itemTexts]
  | cons v items ih => rw [itemTexts, ih, List.map_cons]

theorem memberTexts_eq_map (indent : Nat) (members : List (String × Json)) :
    memberTexts indent members = members.map (memberText indent) := by
  induction members with
  | nil => simp [memberTexts]
  | cons m members ih =>
    rw [memberTexts, ih, List.map_cons, memberText, List.append_assoc]
    rfl

/-- What stands behind a piece: more pieces, and the closing bracket. -/
def behind (closing : Char) (indent : Nat) (pieces : List (List Char)) : List Char :=
  pieces.flatMap (fun p => ',' :: (newLine (indent + 1) ++ p)) ++ (newLine indent ++ [closing])

theorem behind_nil (closing : Char) (indent : Nat) :
    behind closing indent [] = newLine indent ++ [closing] := rfl

theorem behind_cons (closing : Char) (indent : Nat) (p : List Char) (pieces : List (List Char)) :
    behind closing indent (p :: pieces) =
      ',' :: (newLine (indent + 1) ++ (p ++ behind closing indent pieces)) := by
  simp only [behind, List.flatMap_cons, List.cons_append, List.append_assoc]

/-- What stands behind the opening bracket. -/
def inside (closing : Char) (indent : Nat) : List (List Char) → List Char
  | [] => [closing]
  | p :: pieces => newLine (indent + 1) ++ (p ++ behind closing indent pieces)

theorem block_eq (opening closing : Char) (indent : Nat) (pieces : List (List Char)) :
    block opening closing indent pieces = opening :: inside closing indent pieces := by
  cases pieces with
  | nil => rfl
  | cons p pieces =>
    simp only [block, inside, behind, List.cons_append, List.append_assoc, List.nil_append]

/-- Behind a piece a value may end. -/
theorem endsValue_behind (closing : Char) (indent : Nat) (pieces : List (List Char))
    (rest : List Char) : EndsValue (behind closing indent pieces ++ rest) := by
  intro c hc
  cases pieces with
  | nil => exact Or.inr (by simpa [behind_nil, newLine] using hc.symm)
  | cons p pieces => exact Or.inl (by simpa [behind_cons] using hc.symm)

/-- There are at most as many pieces as characters. -/
theorem length_pieces_lt_behind (closing : Char) (indent : Nat) (pieces : List (List Char)) :
    pieces.length < (behind closing indent pieces).length := by
  induction pieces with
  | nil => simp [behind_nil]
  | cons p pieces ih =>
    simp only [behind_cons, List.length_cons, List.length_append]
    omega

theorem length_lt_behind {closing : Char} {indent : Nat} {p : List Char} {pieces : List (List Char)}
    (h : p ∈ pieces) : p.length < (behind closing indent pieces).length := by
  induction pieces with
  | nil => simp at h
  | cons q pieces ih =>
    simp only [behind_cons, List.length_cons, List.length_append]
    rcases List.mem_cons.1 h with rfl | h
    · omega
    · have := ih h
      omega

/-- A block is longer than each of its pieces, and has more characters than pieces. -/
theorem length_lt_block (opening closing : Char) (indent : Nat) (pieces : List (List Char)) :
    pieces.length < (block opening closing indent pieces).length ∧
      ∀ p ∈ pieces, p.length < (block opening closing indent pieces).length := by
  rw [block_eq]
  cases pieces with
  | nil => simp [inside]
  | cons q pieces =>
    have hlength := length_pieces_lt_behind closing indent pieces
    constructor
    · simp only [inside, List.length_cons, List.length_append]
      omega
    · intro p hp
      simp only [inside, List.length_cons, List.length_append]
      rcases List.mem_cons.1 hp with rfl | hp
      · omega
      · have := @length_lt_behind closing indent p pieces hp
        omega

/-! ## Gaps -/

theorem skipGaps_cons {c : Char} (h : isGap c = false) (s : List Char) :
    skipGaps (c :: s) = c :: s := by
  rw [skipGaps, List.dropWhile_cons_of_neg (by simp [h])]

theorem skipGaps_newLine_append (indent : Nat) (s : List Char) :
    skipGaps (newLine indent ++ s) = skipGaps s := by
  have hgaps : ∀ c ∈ newLine indent, isGap c = true := by
    intro c hc
    rcases List.mem_cons.1 hc with rfl | hc
    · rfl
    · rw [List.eq_of_mem_replicate hc]
      rfl
  rw [skipGaps, List.dropWhile_append_of_pos hgaps, skipGaps]

theorem readValue_space (fuel depth : Nat) (s : List Char) :
    readValue fuel depth (' ' :: s) = readValue fuel depth s := by
  have hskip : skipGaps (' ' :: s) = skipGaps s := List.dropWhile_cons_of_pos rfl
  rw [readValue, readValue, hskip]

/-! ## Lists and objects -/

-- Each of these is opened by several of the lemmas that follow.
attribute [local simp] readItems readMembers readValue

section Blocks

variable {item : ValueReader} {fuel : Nat} {c : Char} {s t unread rest : List Char} {v : Json}
  {vs : List Json} {m : String × Json} {ms : List (String × Json)}

/-- The first item of a list. -/
theorem readItems_first (hskip : skipGaps s = c :: t) (hc : c ≠ ']')
    (hitem : item (c :: t) = .ok (v, unread))
    (hrest : readItems item fuel false unread = .ok (vs, rest)) :
    readItems item (fuel + 1) true s = .ok (v :: vs, rest) := by
  simp [hskip, hitem, hrest, bind, Except.bind]

/-- One more item. -/
theorem readItems_comma (hskip : skipGaps s = c :: t) (hc : c ≠ ']')
    (hitem : item (c :: t) = .ok (v, unread))
    (hrest : readItems item fuel false unread = .ok (vs, rest)) :
    readItems item (fuel + 1) false (',' :: s) = .ok (v :: vs, rest) := by
  have hcomma : skipGaps (',' :: s) = ',' :: s := skipGaps_cons rfl s
  simp [hcomma, hskip, hc, hitem, hrest, bind, Except.bind]

/-- The end of a list. -/
theorem readItems_close (first : Bool) (hskip : skipGaps s = ']' :: rest) :
    readItems item (fuel + 1) first s = .ok ([], rest) := by
  simp [hskip]

theorem readMember_of_colon {key : String} (hkey : readString s = .ok (key, ':' :: t))
    (hitem : item t = .ok (v, rest)) : readMember item s = .ok ((key, v), rest) := by
  have hcolon : skipGaps (':' :: t) = ':' :: t := skipGaps_cons rfl t
  simp [readMember, hkey, hcolon, hitem, bind, Except.bind]

/-- The first member of an object. -/
theorem readMembers_first (hskip : skipGaps s = '"' :: t)
    (hmember : readMember item t = .ok (m, unread))
    (hrest : readMembers item fuel false unread = .ok (ms, rest)) :
    readMembers item (fuel + 1) true s = .ok (m :: ms, rest) := by
  simp [hskip, hmember, hrest, bind, Except.bind]

/-- One more member. -/
theorem readMembers_comma (hskip : skipGaps s = '"' :: t)
    (hmember : readMember item t = .ok (m, unread))
    (hrest : readMembers item fuel false unread = .ok (ms, rest)) :
    readMembers item (fuel + 1) false (',' :: s) = .ok (m :: ms, rest) := by
  have hcomma : skipGaps (',' :: s) = ',' :: s := skipGaps_cons rfl s
  simp [hcomma, hskip, hmember, hrest, bind, Except.bind]

/-- The end of an object. -/
theorem readMembers_close (first : Bool) (hskip : skipGaps s = '\x7d' :: rest) :
    readMembers item (fuel + 1) first s = .ok ([], rest) := by
  simp [hskip]

/-! ### Whole lists and objects -/

/-- The text can start an item of a list: with neither a gap nor the end of the list. -/
def StartsItem (s : List Char) : Prop := ∃ c t, s = c :: t ∧ isGap c = false ∧ c ≠ ']'

/-- The reader takes the text for the value, wherever a value may end. -/
def ReadsAs (item : ValueReader) (s : List Char) (v : Json) : Prop :=
  ∀ rest, EndsValue rest → item (s ++ rest) = .ok (v, rest)

/-- The items behind an item are read one after the other. -/
theorem readItems_behind (indent : Nat) (rest : List Char) {text : Json → List Char} :
    ∀ {vs : List Json} {fuel : Nat},
      (∀ v ∈ vs, StartsItem (text v) ∧ ReadsAs item (text v) v) → vs.length < fuel →
        readItems item fuel false (behind ']' indent (vs.map text) ++ rest) = .ok (vs, rest)
  | [], fuel + 1, _, _ => by
      refine readItems_close false ?_
      rw [List.map_nil, behind_nil, List.append_assoc, skipGaps_newLine_append]
      exact skipGaps_cons rfl rest
  | v :: vs, fuel + 1, h, hfuel => by
      obtain ⟨⟨c, t, htext, hgap, hc⟩, hread⟩ := h v List.mem_cons_self
      have hitem := hread _ (endsValue_behind ']' indent (vs.map text) rest)
      have ih := readItems_behind indent rest (fun w hw => h w (List.mem_cons_of_mem v hw))
        (Nat.lt_of_succ_lt_succ hfuel)
      rw [htext] at hitem
      rw [List.map_cons, behind_cons, List.cons_append, List.append_assoc, List.append_assoc, htext]
      refine readItems_comma ?_ hc hitem ih
      rw [skipGaps_newLine_append]
      exact skipGaps_cons hgap _

/-- **The items of a list are read as they are written.** -/
theorem readItems_inside (indent : Nat) (rest : List Char) {text : Json → List Char}
    {vs : List Json} {fuel : Nat} (h : ∀ v ∈ vs, StartsItem (text v) ∧ ReadsAs item (text v) v)
    (hfuel : vs.length < fuel) :
    readItems item fuel true (inside ']' indent (vs.map text) ++ rest) = .ok (vs, rest) := by
  obtain ⟨fuel, rfl⟩ : ∃ k, fuel = k + 1 := ⟨fuel - 1, by omega⟩
  cases vs with
  | nil => exact readItems_close true (skipGaps_cons rfl rest)
  | cons v vs =>
    obtain ⟨⟨c, t, htext, hgap, hc⟩, hread⟩ := h v List.mem_cons_self
    have hitem := hread _ (endsValue_behind ']' indent (vs.map text) rest)
    have hrest := readItems_behind indent rest (fun w hw => h w (List.mem_cons_of_mem v hw))
      (Nat.lt_of_succ_lt_succ hfuel)
    rw [htext] at hitem
    rw [List.map_cons, inside, List.append_assoc, List.append_assoc, htext]
    refine readItems_first ?_ hc hitem hrest
    rw [skipGaps_newLine_append]
    exact skipGaps_cons hgap _

/-- A member is read as it is written, behind the quotation mark that opens its key. -/
theorem readMember_memberText {indent : Nat} {m : String × Json} {rest : List Char}
    (h : ReadsAs item (' ' :: valueText indent m.2) m.2) (hrest : EndsValue rest) :
    ∃ t, memberText indent m ++ rest = '"' :: t ∧ readMember item t = .ok (m, rest) := by
  refine ⟨_, ?_, readMember_of_colon (readString_stringText m.1 _) (h rest hrest)⟩
  rw [memberText, List.append_assoc, stringText_append]
  rfl

/-- The members behind a member are read one after the other. -/
theorem readMembers_behind (indent : Nat) (rest : List Char) :
    ∀ {ms : List (String × Json)} {fuel : Nat},
      (∀ m ∈ ms, ReadsAs item (' ' :: valueText (indent + 1) m.2) m.2) → ms.length < fuel →
        readMembers item fuel false
          (behind '\x7d' indent (ms.map (memberText (indent + 1))) ++ rest) = .ok (ms, rest)
  | [], fuel + 1, _, _ => by
      refine readMembers_close false ?_
      rw [List.map_nil, behind_nil, List.append_assoc, skipGaps_newLine_append]
      exact skipGaps_cons rfl rest
  | m :: ms, fuel + 1, h, hfuel => by
      obtain ⟨t, htext, hmember⟩ := readMember_memberText (h m List.mem_cons_self)
        (endsValue_behind '\x7d' indent (ms.map (memberText (indent + 1))) rest)
      have ih := readMembers_behind indent rest (fun n hn => h n (List.mem_cons_of_mem m hn))
        (Nat.lt_of_succ_lt_succ hfuel)
      rw [List.map_cons, behind_cons, List.cons_append, List.append_assoc, List.append_assoc, htext]
      refine readMembers_comma ?_ hmember ih
      rw [skipGaps_newLine_append]
      exact skipGaps_cons rfl t

/-- **The members of an object are read as they are written.** -/
theorem readMembers_inside (indent : Nat) (rest : List Char) {ms : List (String × Json)}
    {fuel : Nat} (h : ∀ m ∈ ms, ReadsAs item (' ' :: valueText (indent + 1) m.2) m.2)
    (hfuel : ms.length < fuel) :
    readMembers item fuel true (inside '\x7d' indent (ms.map (memberText (indent + 1))) ++ rest) =
      .ok (ms, rest) := by
  obtain ⟨fuel, rfl⟩ : ∃ k, fuel = k + 1 := ⟨fuel - 1, by omega⟩
  cases ms with
  | nil => exact readMembers_close true (skipGaps_cons rfl rest)
  | cons m ms =>
    obtain ⟨t, htext, hmember⟩ := readMember_memberText (h m List.mem_cons_self)
      (endsValue_behind '\x7d' indent (ms.map (memberText (indent + 1))) rest)
    have hrest := readMembers_behind indent rest (fun n hn => h n (List.mem_cons_of_mem m hn))
      (Nat.lt_of_succ_lt_succ hfuel)
    rw [List.map_cons, inside, List.append_assoc, List.append_assoc, htext]
    refine readMembers_first ?_ hmember hrest
    rw [skipGaps_newLine_append]
    exact skipGaps_cons rfl t

end Blocks

/-! ## Values -/

section Values

variable (fuel depth : Nat) (rest : List Char)

theorem readValue_null : readValue fuel depth ('n' :: 'u' :: 'l' :: 'l' :: rest) =
    .ok (null, rest) := by
  simp [skipGaps_cons, isGap, readWord, bind, Except.bind]

theorem readValue_true : readValue fuel depth ('t' :: 'r' :: 'u' :: 'e' :: rest) =
    .ok (bool true, rest) := by
  simp [skipGaps_cons, isGap, readWord, bind, Except.bind]

theorem readValue_false : readValue fuel depth ('f' :: 'a' :: 'l' :: 's' :: 'e' :: rest) =
    .ok (bool false, rest) := by
  simp [skipGaps_cons, isGap, readWord, bind, Except.bind]

theorem readValue_stringText (s : String) :
    readValue fuel depth (stringText s ++ rest) = .ok (str s, rest) := by
  rw [stringText_append]
  simp [skipGaps_cons, isGap, readString_stringText, bind, Except.bind]

variable {fuel depth rest} {s : List Char}

theorem readValue_list {items : List Json}
    (h : readItems (readValue fuel depth) fuel true s = .ok (items, rest)) :
    readValue fuel (depth + 1) ('[' :: s) = .ok (arr items, rest) := by
  simp [skipGaps_cons, isGap, h, bind, Except.bind]

theorem readValue_object {members : List (String × Json)}
    (h : readMembers (readValue fuel depth) fuel true s = .ok (members, rest)) :
    readValue fuel (depth + 1) ('\x7b' :: s) = .ok (obj members, rest) := by
  simp [skipGaps_cons, isGap, h, bind, Except.bind]

theorem isGap_of_isDigit {c : Char} (hc : c.isDigit = true) : isGap c = false := by
  have hne := @Number.ne_of_isDigit c hc
  simp [isGap, hne ' ' rfl, hne '\t' rfl, hne '\n' rfl, hne '\r' rfl]

theorem readValue_number {c : Char} {n : JsonNumber} (hc : c.isDigit = true)
    (h : Number.read false (c :: s) = .ok (n, rest)) :
    readValue fuel depth (c :: s) = .ok (num n, rest) := by
  have hne := @Number.ne_of_isDigit c hc
  rw [readValue, skipGaps_cons (isGap_of_isDigit hc)]
  simp [hc, h, hne 'n' rfl, hne 't' rfl, hne 'f' rfl, hne '-' rfl, bind, Except.bind]

end Values

/-- A value starts with neither a gap nor the end of a list. -/
theorem Plain.startsItem {ok : Nat → Prop} {depth : Nat} {v : Json} (h : Plain ok depth v)
    (indent : Nat) : StartsItem (valueText indent v) := by
  cases h with
  | null => exact ⟨_, _, by rw [valueText], rfl, by decide⟩
  | bool b => cases b <;> exact ⟨_, _, by rw [valueText], rfl, by decide⟩
  | @nat _ n _ =>
    obtain ⟨c, ds, hds, hc⟩ := Number.exists_digit_toDigits n
    exact ⟨c, ds, by rw [valueText]; exact hds, isGap_of_isDigit hc, Number.ne_of_isDigit hc _ rfl⟩
  | str s => exact ⟨_, _, by rw [valueText]; rfl, rfl, by decide⟩
  | arr _ => exact ⟨_, _, by rw [valueText, block_eq], rfl, by decide⟩
  | obj _ => exact ⟨_, _, by rw [valueText, block_eq], rfl, by decide⟩

/-- **A value is read as it is written**, in front of whatever stands behind a value. -/
theorem readsAs_valueText {depth : Nat} {v : Json}
    (h : Plain Number.Fits depth v) :
    ∀ {fuel : Nat} (indent : Nat), (valueText indent v).length < fuel →
      ReadsAs (readValue fuel depth) (valueText indent v) v := by
  induction h with
  | null =>
    intro fuel indent _ rest _
    rw [valueText]
    exact readValue_null fuel _ rest
  | bool b =>
    intro fuel indent _ rest _
    cases b
    · rw [valueText]
      exact readValue_false fuel _ rest
    · rw [valueText]
      exact readValue_true fuel _ rest
  | @nat _ n hn =>
    intro fuel indent _ rest hrest
    have hread := Number.read_toDigits hn hrest
    obtain ⟨c, ds, hds, hc⟩ := Number.exists_digit_toDigits n
    have htext : valueText indent (num (.int (.ofNat n))) = c :: ds := by rw [valueText]; exact hds
    rw [hds] at hread
    rw [htext]
    exact readValue_number hc hread
  | str s =>
    intro fuel indent _ rest _
    rw [valueText]
    exact readValue_stringText fuel _ rest s
  | @arr depth items hitems ih =>
    intro fuel indent hfuel rest _
    rw [valueText, itemTexts_eq_map] at hfuel ⊢
    obtain ⟨hcount, hlength⟩ :=
      length_lt_block '[' ']' indent (items.map (valueText (indent + 1)))
    rw [List.length_map] at hcount
    have hitem : ∀ v ∈ items, StartsItem (valueText (indent + 1) v) ∧
        ReadsAs (readValue fuel depth) (valueText (indent + 1) v) v := by
      intro v hv
      have hshort := hlength _ (List.mem_map_of_mem hv)
      exact ⟨(hitems v hv).startsItem _, ih v hv _ (Nat.lt_trans hshort hfuel)⟩
    rw [block_eq]
    exact readValue_list (readItems_inside indent rest hitem (Nat.lt_trans hcount hfuel))
  | @obj depth members _ ih =>
    intro fuel indent hfuel rest _
    rw [valueText, memberTexts_eq_map] at hfuel ⊢
    obtain ⟨hcount, hlength⟩ :=
      length_lt_block '\x7b' '\x7d' indent (members.map (memberText (indent + 1)))
    rw [List.length_map] at hcount
    have hmember : ∀ m ∈ members,
        ReadsAs (readValue fuel depth) (' ' :: valueText (indent + 1) m.2) m.2 := by
      intro m hm rest hrest
      have hshort := hlength _ (List.mem_map_of_mem hm)
      simp only [memberText, List.length_append, List.length_cons] at hshort
      rw [List.cons_append, readValue_space]
      exact ih m hm _ (by omega) rest hrest
    rw [block_eq]
    exact readValue_object (readMembers_inside indent rest hmember (Nat.lt_trans hcount hfuel))

/-! ## Documents -/

/-- **A document is read as the value that it was written for.** -/
theorem read_document {v : Json} (h : Plain Number.Fits maxDepth v) :
    read (document v) = .ok v := by
  have hread : readValue ((valueText 0 v ++ ['\n']).length + 1) maxDepth (valueText 0 v ++ ['\n']) =
      .ok (v, ['\n']) := by
    refine readsAs_valueText h 0 ?_ ['\n'] endsValue_newline
    rw [List.length_append]
    omega
  rw [read, document, String.toList_ofList, readDocument, hread]
  rfl

end Gamebook.Json
