import Gamebook.Proofs.Pattern.Word
import Gamebook.Proofs.Unread.Segment

/-!
Gamebook.Proofs.Unread.Scan — a search does not look through a quotation mark.

* `Pattern.Matched`: a match may start at a quotation mark, but it does not go on over one.
* `Pattern.at?_append_quote`: whether there is a match in front of a quotation mark does not depend
  on what stands behind the mark.
* `Pattern.at?_blanked`: there is no match in quoted text that has been blanked.

So the search through a line with a blanked literal is the search in front of the literal, followed
by the search behind it (`Pattern.forall₂_scan_literal`).
-/

namespace Gamebook

open Text

namespace Pattern

/-! ## What a match consists of -/

/-- The match stands at the start of the text, it goes on over no quotation mark, and one of its
first two characters is neither such a mark nor a space. -/
def Matched (s lead body : List Char) : Prop :=
  ∃ c m r, s = c :: (m ++ r) ∧ lead ++ body = c :: m ∧ '"' ∉ m ∧
    ∃ d ∈ (c :: m).take 2, d ≠ '"' ∧ d ≠ ' '

/-- **A match does not go on over a quotation mark.** -/
theorem matched_of_at? {p : Pattern} {b : Bool} {s lead body : List Char}
    (h : p.at? b s = some (lead, body)) : Matched s lead body := by
  obtain ⟨hreads, r, rfl⟩ := reads_of_at? h
  have hquote : '"' ∉ body := hreads.notMem_body (by decide) (by decide)
  have hspace : ' ' ∉ body := hreads.notMem_body (by decide) (by decide)
  by_cases hp : p ∈ isolated
  · obtain ⟨hlead, c, m, rfl, hlower⟩ := hreads.isLower_head hp
    rw [List.mem_cons, not_or] at hquote hspace
    cases lead with
    | nil => exact ⟨c, m, r, rfl, rfl, hquote.2, c, by simp, Ne.symm hquote.1, Ne.symm hspace.1⟩
    | cons d lead =>
      -- What stands in front may be a quotation mark, so the first letter has to do.
      obtain rfl : lead = [] := List.length_eq_zero_iff.1 (Nat.le_zero.1 (Nat.le_of_succ_le_succ hlead))
      refine ⟨d, c :: m, r, rfl, rfl, ?_, c, by simp, Ne.symm hquote.1, Ne.symm hspace.1⟩
      rw [List.mem_cons, not_or]
      exact hquote
  · obtain ⟨hspace', hquote'⟩ := hreads.notMem_lead hp
    obtain ⟨c, m, hm⟩ := List.exists_cons_of_ne_nil
      (List.append_ne_nil_of_right_ne_nil lead hreads.body_ne_nil)
    have hquoted : '"' ∉ c :: m := by
      rw [← hm, List.mem_append, not_or]
      exact ⟨hquote', hquote⟩
    have hspaced : ' ' ∉ c :: m := by
      rw [← hm, List.mem_append, not_or]
      exact ⟨hspace', hspace⟩
    rw [List.mem_cons, not_or] at hquoted hspaced
    exact ⟨c, m, r, by rw [hm]; rfl, hm, hquoted.2, c, by simp, Ne.symm hquoted.1,
      Ne.symm hspaced.1⟩

/-- **A match that starts in front of a quotation mark does not depend on what stands behind the
mark.** -/
theorem at?_append_quote (p : Pattern) (b : Bool) (c : Char) :
    LooksInFront fun s => p.at? b (c :: s) := by
  intro u x x'
  simp only [at?_append_stop p isStop_quote]

/-! ## The search -/

/-- Blanked text and the mark behind it: two characters at which no match starts. -/
theorem at?_blanked (p : Pattern) (b : Bool) {c d : Char} (hc : c = '"' ∨ c = ' ')
    (hd : d = '"' ∨ d = ' ') (s : List Char) : p.at? b (c :: d :: s) = none := by
  cases h : p.at? b (c :: d :: s) with
  | none => rfl
  | some found =>
    obtain ⟨c', m, r, hs, -, -, e, he, hquote, hspace⟩ := matched_of_at? h
    obtain ⟨rfl, hrest⟩ := List.cons.inj hs
    have hmem : e = c ∨ e = d := by
      cases m with
      | nil => exact Or.inl (by simpa using he)
      | cons d' m =>
        obtain ⟨rfl, -⟩ := List.cons.inj hrest
        simpa using he
    rcases hmem with rfl | rfl
    · exact absurd hc (not_or.2 ⟨hquote, hspace⟩)
    · exact absurd hd (not_or.2 ⟨hquote, hspace⟩)

/-- **The search in front of a quotation mark**: it finds the same whatever stands behind the mark,
and then it goes on at the mark. -/
theorem exists_scanFrom_append (p : Pattern) : ∀ (a : List Char) (b : Bool) (skip pos : Nat),
    skip ≤ a.length → ∃ left b', (∀ hit ∈ left,
      Hit.start hit + byteLength (hit.lead ++ hit.body) ≤ pos + byteLength a) ∧
        ∀ x, p.scanFrom b skip pos (a ++ '"' :: x) =
          left ++ p.scanFrom b' 0 (pos + byteLength a) ('"' :: x)
  | [], b, 0, pos, _ => ⟨[], b, by simp, fun x => rfl⟩
  | c :: a, b, k + 1, pos, h => by
      rw [List.length_cons, Nat.add_le_add_iff_right] at h
      obtain ⟨left, b', hleft, hscan⟩ := exists_scanFrom_append p a false k (pos + c.utf8Size) h
      rw [Nat.add_assoc, ← byteLength_cons] at hleft
      refine ⟨left, b', hleft, fun x => ?_⟩
      rw [List.cons_append, scanFrom, hscan, byteLength_cons, Nat.add_assoc]
  | c :: a, b, 0, pos, _ => by
      have hat : ∀ x, p.at? b (c :: (a ++ '"' :: x)) = p.at? b (c :: (a ++ '"' :: [])) :=
        fun x => at?_append_quote p b c a x []
      cases hfound : p.at? b (c :: (a ++ '"' :: [])) with
      | none =>
        obtain ⟨left, b', hleft, hscan⟩ :=
          exists_scanFrom_append p a false 0 (pos + c.utf8Size) (Nat.zero_le _)
        rw [Nat.add_assoc, ← byteLength_cons] at hleft
        refine ⟨left, b', hleft, fun x => ?_⟩
        rw [List.cons_append, scanFrom, hat, hfound]
        simp only
        rw [hscan, byteLength_cons, Nat.add_assoc]
      | some found =>
        obtain ⟨lead, body⟩ := found
        obtain ⟨c', m, r, hs, hm, hquote, -⟩ := matched_of_at? hfound
        obtain ⟨rfl, hrest⟩ := List.cons.inj hs
        obtain ⟨r', rfl⟩ := prefix_of_prefix_append_cons hquote ⟨r, hrest.symm⟩
        have hskip : lead.length + body.length - 1 = m.length := by
          rw [← List.length_append, hm, List.length_cons, Nat.add_sub_cancel]
        obtain ⟨left, b', hleft, hscan⟩ := exists_scanFrom_append p (m ++ r') false m.length
          (pos + c.utf8Size) (by rw [List.length_append]; omega)
        rw [Nat.add_assoc, ← byteLength_cons] at hleft
        refine ⟨⟨pos, lead, body⟩ :: left, b', ?_, fun x => ?_⟩
        · intro hit hhit
          rcases List.mem_cons.1 hhit with rfl | hhit
          · rw [hm, ← List.cons_append, byteLength_append]
            show pos + byteLength (c :: m) ≤ _
            omega
          · exact hleft hit hhit
        · rw [List.cons_append, scanFrom, hat, hfound]
          simp only
          rw [hskip, hscan, byteLength_cons, Nat.add_assoc, List.cons_append]

/-- Blanked text starts with a space, or it is empty and its closing mark follows. -/
theorem exists_cons_blanked (n : Nat) (y : List Char) :
    ∃ d s, List.replicate n ' ' ++ '"' :: y = d :: s ∧ (d = '"' ∨ d = ' ') := by
  cases n with
  | zero => exact ⟨'"', y, rfl, Or.inl rfl⟩
  | succ n => exact ⟨' ', _, rfl, Or.inr rfl⟩

/-- **The search through a blanked literal** finds nothing. -/
theorem scanFrom_blanked (p : Pattern) (y : List Char) (n pos : Nat) (b : Bool) :
    p.scanFrom b 0 pos ('"' :: (List.replicate n ' ' ++ '"' :: y)) =
      p.scanFrom false 0 (pos + 1 + n) ('"' :: y) := by
  have hspaces : ∀ (n pos : Nat),
      p.scanFrom false 0 pos (List.replicate n ' ' ++ '"' :: y) =
        p.scanFrom false 0 (pos + n) ('"' :: y) := by
    intro n
    induction n with
    | zero => intro pos; rfl
    | succ n ih =>
      intro pos
      obtain ⟨d, s, hs, hd⟩ := exists_cons_blanked n y
      rw [List.replicate_succ, List.cons_append, scanFrom, hs, at?_blanked p false (Or.inr rfl) hd,
        ← hs]
      simp only
      rw [ih, Nat.add_assoc, Nat.add_comm n 1]
      rfl
  obtain ⟨d, s, hs, hd⟩ := exists_cons_blanked n y
  rw [scanFrom, hs, at?_blanked p b (Or.inl rfl) hd, ← hs]
  simp only
  exact hspaces n (pos + 1)

end Pattern

/-- The matches `h` of `s` and `h'` of `s'` are the same and stand in the same columns. -/
structure Hit.Alike (s s' : List Char) (h h' : Hit) : Prop where
  /-- What is not captured. -/
  lead : h.lead = h'.lead
  /-- What is captured. -/
  body : h.body = h'.body
  /-- Where they start, and where a beginning of them ends. -/
  place : ∀ w, w <+: h.lead ++ h.body →
    SamePlace s s' (h.start + byteLength w) (h'.start + byteLength w)

/-- In front of the place up to which the lines agree, matches stay as they are. -/
theorem Hit.Alike.of_stop_le {s s' : List Char} {b : Nat} (h : ∀ m ≤ b, SamePlace s s' m m)
    {hit : Hit} (hhit : hit.start + byteLength (hit.lead ++ hit.body) ≤ b) :
    hit.Alike s s' hit where
  lead := rfl
  body := rfl
  place := by
    rintro w ⟨r, hr⟩
    refine h _ (Nat.le_trans ?_ hhit)
    rw [← hr, byteLength_append]
    omega

namespace Pattern

/-- Behind the place from which the lines agree again, matches move. -/
theorem forall₂_scanFrom {s s' : List Char} (p : Pattern) : ∀ (y : List Char) (b : Bool)
    (skip : Nat) {pos pos' : Nat}, (∀ m, SamePlace s s' (pos + m) (pos' + m)) →
      List.Forall₂ (Hit.Alike s s') (p.scanFrom b skip pos y) (p.scanFrom b skip pos' y)
  | [], _, _, _, _, _ => .nil
  | c :: y, b, skip, pos, pos', h => by
      have hmoved : ∀ m, SamePlace s s' (pos + c.utf8Size + m) (pos' + c.utf8Size + m) := by
        intro m
        rw [Nat.add_assoc, Nat.add_assoc]
        exact h (c.utf8Size + m)
      have ih := fun b skip => forall₂_scanFrom p y b skip hmoved
      cases skip with
      | succ k => exact ih false k
      | zero =>
        rw [scanFrom, scanFrom]
        split
        next lead body _ => exact .cons ⟨rfl, rfl, fun w _ => h (byteLength w)⟩ (ih _ _)
        next => exact ih _ _

/-- **The matches of two lines that differ in one blanked literal** are alike. -/
theorem forall₂_scan_literal {s s' x : List Char} {b n n' : Nat} (hagree : Agree s s' b n n')
    (hb : byteLength x + 1 = b) (p : Pattern) (y : List Char) :
    List.Forall₂ (Hit.Alike s s') (p.scan (x ++ '"' :: (List.replicate n ' ' ++ '"' :: y)))
      (p.scan (x ++ '"' :: (List.replicate n' ' ' ++ '"' :: y))) := by
  obtain ⟨left, b', hleft, hscan⟩ := exists_scanFrom_append p x true 0 0 (Nat.zero_le _)
  rw [scan, scan, hscan, hscan, scanFrom_blanked, scanFrom_blanked, Nat.zero_add, hb]
  refine List.rel_append (List.forall₂_same.2 fun hit hhit => ?_) ?_
  · have hstop := hleft hit hhit
    exact .of_stop_le hagree.front (by omega)
  · exact forall₂_scanFrom p ('"' :: y) false 0 hagree.back

/-- A match ends within its text. -/
theorem stop_le_of_mem_scan {p : Pattern} {s : List Char} {hit : Hit} (h : hit ∈ p.scan s) :
    hit.start + byteLength (hit.lead ++ hit.body) ≤ byteLength s := by
  obtain ⟨a, r, b, rfl, hstart, hat⟩ := exists_append_of_mem_scan h
  obtain ⟨c, m, r', rfl, hm, -⟩ := matched_of_at? hat
  rw [hstart, hm, ← List.cons_append, byteLength_append, byteLength_append]
  omega

/-- In front of the place up to which the lines agree, matches stay as they are. -/
theorem forall₂_scan_of_le {s s' : List Char} {b : Nat} (h : ∀ m ≤ b, SamePlace s s' m m)
    {x : List Char} (hb : byteLength x ≤ b) (p : Pattern) :
    List.Forall₂ (Hit.Alike s s') (p.scan x) (p.scan x) :=
  List.forall₂_same.2 fun _ hhit => .of_stop_le h (Nat.le_trans (stop_le_of_mem_scan hhit) hb)

end Pattern

end Gamebook
