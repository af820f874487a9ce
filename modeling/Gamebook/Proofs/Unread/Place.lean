import Gamebook.Text.Offset

/-!
Gamebook.Proofs.Unread.Place — places of two lines that lie in the same column.

Two lines that differ in a stretch with the same number of characters have the same columns, but
behind the stretch not the same offsets, since its characters need not have the same sizes. Offsets
of the two lines are therefore compared by what they mean (`SamePlace`): the number of characters in
front of them. `Agree` says where the two lines agree, and what is shown of their words rests on
this alone.
-/

namespace Gamebook.Text

/-! ## Offsets in front of a place, and behind it -/

/-- In front of a place, what stands behind it does not count. -/
theorem indexOf?_append_of_le (s : List Char) : ∀ {p : List Char} {n : Nat}, n ≤ byteLength p →
    indexOf? (p ++ s) n = indexOf? p n
  | _, 0, _ => by rw [indexOf?_zero, indexOf?_zero]
  | [], n + 1, h => by rw [byteLength_nil] at h; omega
  | c :: p, n + 1, h => by
      rw [byteLength_cons] at h
      have ih := indexOf?_append_of_le s (p := p) (n := n + 1 - c.utf8Size) (by omega)
      rw [List.cons_append, indexOf?, indexOf?, ih]

/-- Behind a place, the characters in front of it count. -/
theorem indexOf?_append_add (s : List Char) (n : Nat) : ∀ p : List Char,
    indexOf? (p ++ s) (byteLength p + n) = (indexOf? s n).map (· + p.length)
  | [] => by simp
  | c :: p => by
      have ih := indexOf?_append_add s n p
      have hc := c.utf8Size_pos
      obtain ⟨k, hk⟩ : ∃ k, byteLength (c :: p) + n = k + 1 := by
        refine ⟨byteLength (c :: p) + n - 1, ?_⟩
        rw [byteLength_cons]
        omega
      have hle : c.utf8Size ≤ k + 1 := by rw [← hk, byteLength_cons]; omega
      have hrest : k + 1 - c.utf8Size = byteLength p + n := by
        rw [← hk, byteLength_cons]
        omega
      rw [hk, List.cons_append, indexOf?, if_pos hle, hrest, ih, Option.map_map]
      rfl

/-! ## Places of two lines -/

/-- Offset `n` of `s` and offset `n'` of `s'` lie in the same column, or in none. -/
def SamePlace (s s' : List Char) (n n' : Nat) : Prop := indexOf? s n = indexOf? s' n'

theorem SamePlace.columns? {s s' : List Char} {a a' b b' : Nat} (ha : SamePlace s s' a a')
    (hb : SamePlace s s' b b') : Span.columns? s ⟨a, b⟩ = Span.columns? s' ⟨a', b'⟩ := by
  show (indexOf? s a).bind _ = (indexOf? s' a').bind _
  rw [ha]
  refine congrArg _ (funext fun i => ?_)
  show (indexOf? s b).bind _ = (indexOf? s' b').bind _
  rw [hb]

theorem samePlace_front {p : List Char} (x x' : List Char) {n : Nat} (h : n ≤ byteLength p) :
    SamePlace (p ++ x) (p ++ x') n n := by
  rw [SamePlace, indexOf?_append_of_le x h, indexOf?_append_of_le x' h]

theorem samePlace_back {p p' : List Char} (h : p.length = p'.length) (r : List Char) (n : Nat) :
    SamePlace (p ++ r) (p' ++ r) (byteLength p + n) (byteLength p' + n) := by
  rw [SamePlace, indexOf?_append_add, indexOf?_append_add, h]

/-- The lines agree up to byte `b`; behind it they agree again, `n` bytes further right in `s` and
`n'` bytes further right in `s'`. -/
structure Agree (s s' : List Char) (b n n' : Nat) : Prop where
  /-- Up to byte `b`. -/
  front : ∀ m ≤ b, SamePlace s s' m m
  /-- Behind the stretch. -/
  back : ∀ m, SamePlace s s' (b + n + m) (b + n' + m)

/-- Lines agree around a stretch of the same number of characters. -/
theorem agree_append (p : List Char) {t t' : List Char} (r : List Char)
    (h : t.length = t'.length) :
    Agree (p ++ t ++ r) (p ++ t' ++ r) (byteLength p) (byteLength t) (byteLength t') where
  front m hm := by
    rw [List.append_assoc, List.append_assoc]
    exact samePlace_front _ _ hm
  back m := by
    have hlength : (p ++ t).length = (p ++ t').length := by
      rw [List.length_append, List.length_append, h]
    rw [← byteLength_append, ← byteLength_append]
    exact samePlace_back hlength r m

end Gamebook.Text
