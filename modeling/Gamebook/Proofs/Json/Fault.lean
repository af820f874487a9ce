import Gamebook.Json.Reader
import Gamebook.Proofs.Text.Pieces

/-!
Gamebook.Proofs.Json.Fault — a text that ends too early is at fault at its end.

A reader that finds the end of the text where it must not be stops there, whatever it was reading.
`StopsAtEnd` says so of the result of any reader. Readers that are done one after the other keep it
(`StopsAtEnd.bind`), so it is proved for one reader after the other, from words up to documents.

The place of such a fault is then the end of the text: its last line, behind all that stands there
(`exists_place_of_isEnd`).
-/

namespace Gamebook.Json

open Text

/-- Where the text ended too early, nothing of it was left. -/
def StopsAtEnd {α : Type} (x : Attempt α) : Prop :=
  ∀ stop, x = .error stop → stop.fault.isEnd = true → stop.unread = [] ∧ stop.ahead = 0

/-! ## Results -/

section

variable {α β : Type}

theorem stopsAtEnd_ok (a : α) : StopsAtEnd (.ok a) := fun _ h => absurd h (by simp)

theorem stopsAtEnd_nil (fault : Fault) : StopsAtEnd (stopAt fault [] : Attempt α) := by
  intro stop h _
  rw [← Except.error.inj h]
  exact ⟨rfl, rfl⟩

theorem stopsAtEnd_error {stop : Stop} (hfault : stop.fault.isEnd = false) :
    StopsAtEnd (.error stop : Attempt α) := by
  intro stop' h hend
  rw [← Except.error.inj h, hfault] at hend
  exact absurd hend (by decide)

/-- **One reader after the other** stops at the end if both do. -/
theorem StopsAtEnd.bind {x : Attempt α} {f : α → Attempt β} (hx : StopsAtEnd x)
    (hf : ∀ a, StopsAtEnd (f a)) : StopsAtEnd (x >>= f) := by
  cases x with
  | ok a => exact hf a
  | error stop =>
    intro stop' h hend
    obtain rfl : stop = stop' := Except.error.inj h
    exact hx stop rfl hend

end

/-! ## Words and strings -/

theorem stopsAtEnd_readWord : ∀ (word s : List Char), StopsAtEnd (readWord word s)
  | [], s => stopsAtEnd_ok s
  | _ :: _, [] => stopsAtEnd_nil _
  | a :: word, c :: s => by
      rw [readWord]
      split
      · exact stopsAtEnd_readWord word s
      · exact stopsAtEnd_error rfl

theorem stopsAtEnd_readHex (s : List Char) : StopsAtEnd (readHex s) := by
  unfold readHex
  simp only
  split
  · exact stopsAtEnd_nil _
  · split
    · exact stopsAtEnd_ok _
    · exact stopsAtEnd_error rfl

theorem stopsAtEnd_readLowHalf (high : Nat) (s : List Char) : StopsAtEnd (readLowHalf high s) := by
  unfold readLowHalf
  split
  · exact stopsAtEnd_nil _
  · exact stopsAtEnd_nil _
  · refine (stopsAtEnd_readHex _).bind fun low => ?_
    split
    · exact stopsAtEnd_ok _
    · exact stopsAtEnd_error rfl
  · exact stopsAtEnd_error rfl
  · exact stopsAtEnd_error rfl

theorem stopsAtEnd_readUnicode (s : List Char) : StopsAtEnd (readUnicode s) := by
  unfold readUnicode
  refine (stopsAtEnd_readHex s).bind fun unit => ?_
  split
  · exact stopsAtEnd_error rfl
  · split
    · exact (stopsAtEnd_readLowHalf unit _).bind fun c => stopsAtEnd_ok _
    · exact stopsAtEnd_ok _

theorem stopsAtEnd_readEscape (s : List Char) : StopsAtEnd (readEscape s) := by
  unfold readEscape
  split
  · exact stopsAtEnd_nil _
  · split
    · exact (stopsAtEnd_readUnicode _).bind fun c => stopsAtEnd_ok _
    · split
      · exact stopsAtEnd_ok _
      · exact stopsAtEnd_error rfl

theorem stopsAtEnd_readStringFrom : ∀ (s : List Char) (skip : Nat),
    StopsAtEnd (readStringFrom skip s)
  | [], _ => stopsAtEnd_nil _
  | c :: s, k + 1 => stopsAtEnd_readStringFrom s k
  | c :: s, 0 => by
      rw [readStringFrom]
      split
      · exact stopsAtEnd_ok _
      · split
        · exact (stopsAtEnd_readEscape s).bind fun escape =>
            (stopsAtEnd_readStringFrom s escape.2).bind fun rest => stopsAtEnd_ok _
        · split
          · exact stopsAtEnd_error rfl
          · exact (stopsAtEnd_readStringFrom s 0).bind fun rest => stopsAtEnd_ok _

theorem stopsAtEnd_readString (s : List Char) : StopsAtEnd (readString s) :=
  (stopsAtEnd_readStringFrom s 0).bind fun _ => stopsAtEnd_ok _

/-! ## Numbers -/

namespace Number

theorem stopsAtEnd_finish (negative : Bool) (m : Nat) (exponent : Int) (s : List Char) :
    StopsAtEnd (finish negative m exponent s) := by
  unfold finish
  split
  · exact stopsAtEnd_ok _
  · exact stopsAtEnd_error rfl

theorem stopsAtEnd_readExponent (negative : Bool) (m : Nat) (exponent : Int) (s : List Char) :
    StopsAtEnd (readExponent negative m exponent s) := by
  unfold readExponent
  simp only
  split
  · exact stopsAtEnd_nil _
  · split
    · split
      · exact stopsAtEnd_finish _ _ _ _
      · split
        · exact stopsAtEnd_error rfl
        · exact stopsAtEnd_ok _
    · exact stopsAtEnd_error rfl

theorem stopsAtEnd_readDoubleTail (negative : Bool) (m : Nat) (exponent : Int) (s : List Char) :
    StopsAtEnd (readDoubleTail negative m exponent s) := by
  unfold readDoubleTail
  split
  · exact stopsAtEnd_readExponent _ _ _ _
  · exact stopsAtEnd_readExponent _ _ _ _
  · exact stopsAtEnd_finish _ _ _ _

theorem stopsAtEnd_readFraction (negative : Bool) (m : Nat) (exponent : Int) (s : List Char) :
    StopsAtEnd (readFraction negative m exponent s) := by
  unfold readFraction
  simp only
  split
  · exact stopsAtEnd_readDoubleTail _ _ _ _
  · split
    · split
      · exact stopsAtEnd_nil _
      · exact stopsAtEnd_error rfl
    · exact stopsAtEnd_readDoubleTail _ _ _ _

theorem stopsAtEnd_readTail (negative : Bool) (m : Nat) (s : List Char) :
    StopsAtEnd (readTail negative m s) := by
  unfold readTail
  split
  · exact stopsAtEnd_readFraction _ _ _ _
  · exact stopsAtEnd_readExponent _ _ _ _
  · exact stopsAtEnd_readExponent _ _ _ _
  · exact stopsAtEnd_ok _

theorem stopsAtEnd_readLong (negative : Bool) (m : Nat) (s : List Char) :
    StopsAtEnd (readLong negative m s) := by
  unfold readLong
  simp only
  split
  · exact stopsAtEnd_readFraction _ _ _ _
  · exact stopsAtEnd_readDoubleTail _ _ _ _

theorem stopsAtEnd_read (negative : Bool) (s : List Char) : StopsAtEnd (read negative s) := by
  unfold read
  split
  · exact stopsAtEnd_nil _
  · split
    · split
      · exact stopsAtEnd_error rfl
      · exact stopsAtEnd_readTail _ _ _
    · split
      · simp only
        split
        · exact stopsAtEnd_readLong _ _ _
        · exact stopsAtEnd_readTail _ _ _
      · exact stopsAtEnd_error rfl

end Number

/-! ## Lists and objects -/

section

variable {item : ValueReader} (hitem : ∀ s, StopsAtEnd (item s))
include hitem

theorem stopsAtEnd_readItems : ∀ (fuel : Nat) (first : Bool) (s : List Char),
    StopsAtEnd (readItems item fuel first s)
  | 0, _, _ => stopsAtEnd_nil _
  | fuel + 1, first, s => by
      have hnext : ∀ t, StopsAtEnd (item t >>= fun v =>
          readItems item fuel false v.2 >>= fun vs => .ok (v.1 :: vs.1, vs.2)) := fun t =>
        (hitem t).bind fun v =>
          (stopsAtEnd_readItems fuel false v.2).bind fun vs => stopsAtEnd_ok _
      rw [readItems]
      simp only
      split
      · exact stopsAtEnd_nil _
      · exact stopsAtEnd_ok _
      · split
        · exact hnext _
        · split
          · split
            · exact stopsAtEnd_nil _
            · exact stopsAtEnd_error rfl
            · exact hnext _
          · exact stopsAtEnd_error rfl

theorem stopsAtEnd_readMember (s : List Char) : StopsAtEnd (readMember item s) := by
  unfold readMember
  refine (stopsAtEnd_readString s).bind fun key => ?_
  simp only
  split
  · exact stopsAtEnd_nil _
  · exact (hitem _).bind fun v => stopsAtEnd_ok _
  · exact stopsAtEnd_error rfl

theorem stopsAtEnd_readMembers : ∀ (fuel : Nat) (first : Bool) (s : List Char),
    StopsAtEnd (readMembers item fuel first s)
  | 0, _, _ => stopsAtEnd_nil _
  | fuel + 1, first, s => by
      have hnext : ∀ t, StopsAtEnd (readMember item t >>= fun m =>
          readMembers item fuel false m.2 >>= fun ms => .ok (m.1 :: ms.1, ms.2)) := fun t =>
        (stopsAtEnd_readMember hitem t).bind fun m =>
          (stopsAtEnd_readMembers fuel false m.2).bind fun ms => stopsAtEnd_ok _
      rw [readMembers]
      simp only
      split
      · exact stopsAtEnd_nil _
      · exact stopsAtEnd_ok _
      · split
        · split
          · exact hnext _
          · exact stopsAtEnd_error rfl
        · split
          · split
            · exact stopsAtEnd_nil _
            · exact hnext _
            · exact stopsAtEnd_error rfl
            · exact stopsAtEnd_error rfl
          · exact stopsAtEnd_error rfl

end

/-! ## Values and documents -/

theorem stopsAtEnd_readValue (fuel depth : Nat) : ∀ s : List Char,
    StopsAtEnd (readValue fuel depth s) := by
  induction depth using Nat.strongRecOn with
  | ind depth ih =>
    intro s
    unfold readValue
    split
    · exact stopsAtEnd_nil _
    · split
      · exact (stopsAtEnd_readWord _ _).bind fun _ => stopsAtEnd_ok _
      split
      · exact (stopsAtEnd_readWord _ _).bind fun _ => stopsAtEnd_ok _
      split
      · exact (stopsAtEnd_readWord _ _).bind fun _ => stopsAtEnd_ok _
      split
      · exact (Number.stopsAtEnd_read _ _).bind fun _ => stopsAtEnd_ok _
      split
      · exact (Number.stopsAtEnd_read _ _).bind fun _ => stopsAtEnd_ok _
      split
      · exact (stopsAtEnd_readString _).bind fun _ => stopsAtEnd_ok _
      split
      · split
        · exact stopsAtEnd_error rfl
        next d =>
          exact (stopsAtEnd_readItems (ih d (Nat.lt_succ_self d)) _ _ _).bind fun _ =>
            stopsAtEnd_ok _
      split
      · split
        · exact stopsAtEnd_error rfl
        next d =>
          exact (stopsAtEnd_readMembers (ih d (Nat.lt_succ_self d)) _ _ _).bind fun _ =>
            stopsAtEnd_ok _
      · exact stopsAtEnd_error rfl

theorem stopsAtEnd_readDocument (s : List Char) : StopsAtEnd (readDocument s) := by
  unfold readDocument
  refine (stopsAtEnd_readValue _ _ s).bind fun v => ?_
  simp only
  split
  · exact stopsAtEnd_ok _
  · exact stopsAtEnd_error rfl

/-! ## Places -/

theorem placeAt_newline (line column n : Nat) (s : List Char) :
    placeAt line column (n + 1) ('\n' :: s) = placeAt (line + 1) 0 n s := by
  rw [placeAt, if_pos rfl]

theorem placeAt_cons {c : Char} (hc : c ≠ '\n') (line column n : Nat) (s : List Char) :
    placeAt line column (c.utf8Size + n) (c :: s) = placeAt line (column + c.utf8Size) n s := by
  have hpos := c.utf8Size_pos
  obtain ⟨k, hk⟩ : ∃ k, c.utf8Size = k + 1 := ⟨c.utf8Size - 1, by omega⟩
  have hsize : c.utf8Size + n = k + n + 1 := by omega
  have hrest : k + n + 1 - c.utf8Size = n := by omega
  rw [hsize, placeAt, if_neg hc, if_pos (by omega), hrest]

/-- The place behind a text is on its last line, behind all that stands there. -/
theorem exists_placeAt_byteLength : ∀ (s : List Char) (line column : Nat),
    ∃ front last, lines s = front ++ [last] ∧
      placeAt line column (byteLength s) s =
        (line + front.length, (if front = [] then column else 0) + byteLength last)
  | [], line, column => ⟨[], [], rfl, rfl⟩
  | c :: s, line, column => by
      by_cases hc : c = '\n'
      · subst hc
        obtain ⟨front, last, hlines, hplace⟩ := exists_placeAt_byteLength s (line + 1) 0
        refine ⟨[] :: front, last, ?_, ?_⟩
        · rw [lines, pieces_cons_sep, ← lines, hlines, List.cons_append]
        · have hsize : byteLength ('\n' :: s) = byteLength s + 1 := Nat.add_comm _ _
          rw [hsize, placeAt_newline, hplace, ite_self, if_neg (List.cons_ne_nil _ _),
            List.length_cons, Nat.add_right_comm, Nat.add_assoc line]
      · obtain ⟨front, last, hlines, hplace⟩ :=
          exists_placeAt_byteLength s line (column + c.utf8Size)
        rw [byteLength_cons, placeAt_cons hc, hplace]
        cases front with
        | nil =>
          refine ⟨[], c :: last, pieces_cons_of_ne hc hlines, ?_⟩
          rw [if_pos rfl, if_pos rfl, byteLength_cons, Nat.add_assoc]
        | cons l front =>
          refine ⟨(c :: l) :: front, last, pieces_cons_of_ne hc hlines, ?_⟩
          rw [if_neg (List.cons_ne_nil _ _), if_neg (List.cons_ne_nil _ _)]
          rfl

/-- **A text that ends too early is at fault at its end**: on its last line, behind all that stands
there. -/
theorem exists_place_of_isEnd {text : String} {e : SyntaxError} (h : read text = .error e)
    (hend : e.fault.isEnd = true) :
    ∃ front last, lines text.toList = front ++ [last] ∧
      e.line = front.length + 1 ∧ e.column = byteLength last := by
  obtain ⟨stop, hstop, rfl⟩ : ∃ stop, readDocument text.toList = .error stop ∧
      SyntaxError.ofStop text.toList stop = e := by
    unfold read at h
    cases hread : readDocument text.toList with
    | ok v => rw [hread] at h; cases h
    | error stop => rw [hread] at h; exact ⟨stop, rfl, Except.error.inj h⟩
  obtain ⟨hunread, hahead⟩ := stopsAtEnd_readDocument text.toList stop hstop hend
  obtain ⟨front, last, hlines, hplace⟩ := exists_placeAt_byteLength text.toList 1 0
  refine ⟨front, last, hlines, ?_⟩
  have hoffset : byteLength text.toList - byteLength stop.unread + stop.ahead =
      byteLength text.toList := by rw [hunread, hahead]; rfl
  rw [SyntaxError.ofStop, hoffset, hplace, ite_self, Nat.zero_add]
  exact ⟨Nat.add_comm _ _, rfl⟩

/-- The list is not closed. -/
example : read "[1,\n 2" = .error ⟨.endInList, 2, 2⟩ := by cbv

end Gamebook.Json
