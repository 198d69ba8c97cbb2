import Mathlib.Data.List.DropRight

set_option autoImplicit false

/-!
# Foundation: runs before a position

`runBefore p l offset x` counts the elements with `p` that stand right before position `x`
of a list, going back as far as `offset`.  A scanner that counts such elements and starts
again at every other one holds this number.
-/

namespace RtpBenchmarks.Foundation

variable {α : Type} {p : α → Bool} {l : List α} {a : α} {offset s x : Nat}

/-- How many elements with `p` stand right before position `x`, from `offset` on. -/
def runBefore (p : α → Bool) (l : List α) (offset x : Nat) : Nat :=
  (((l.take x).drop offset).rtakeWhile p).length

/-- The end of a list, up to an element without `p`. -/
theorem rtakeWhile_append_cons_neg (l l' : List α) (ha : p a = false) :
    (l ++ a :: l').rtakeWhile p = l'.rtakeWhile p := by
  simp only [List.rtakeWhile, List.reverse_append, List.reverse_cons, List.append_assoc,
    List.takeWhile_append, List.singleton_append]
  rw [List.takeWhile_cons_of_neg (by simp [ha]), List.append_nil]
  split_ifs with hall
  · exact congrArg List.reverse (List.takeWhile_prefix p |>.eq_of_length hall).symm
  · rfl

theorem runBefore_le : runBefore p l offset x ≤ x - offset := by
  have hsuffix := (List.rtakeWhile_suffix p ((l.take x).drop offset)).length_le
  rw [List.length_drop, List.length_take] at hsuffix
  unfold runBefore
  omega

theorem runBefore_eq_zero (h : x ≤ offset) : runBefore p l offset x = 0 := by
  have hle := @runBefore_le α p l offset x
  omega

/-- One element further. -/
theorem runBefore_succ (hx : offset ≤ x) (ha : l[x]? = some a) :
    runBefore p l offset (x + 1) = if p a then runBefore p l offset x + 1 else 0 := by
  have hlt : x < l.length := (List.getElem?_eq_some_iff.mp ha).1
  have htake : (l.take (x + 1)).drop offset = (l.take x).drop offset ++ [a] := by
    rw [List.take_add_one, ha, Option.toList_some, List.drop_append_of_le_length]
    rw [List.length_take]
    omega
  unfold runBefore
  rw [htake, List.rtakeWhile_concat]
  split_ifs
  · rw [List.length_append, List.length_singleton]
  · rfl

/-- A run does not go back over an element without `p`. -/
theorem runBefore_behind (ha : l[s]? = some a) (hp : p a = false) (hs : offset ≤ s)
    (hx : s < x) : runBefore p l (s + 1) x = runBefore p l offset x := by
  have hget : (l.take x)[s]? = some a := by rw [List.getElem?_take, if_pos hx, ha]
  obtain ⟨hlt, hgetElem⟩ := List.getElem?_eq_some_iff.mp hget
  have hsplit : (l.take x).drop offset =
      ((l.take x).take s).drop offset ++ a :: (l.take x).drop (s + 1) := by
    conv_lhs => rw [← List.take_append_drop s (l.take x), List.drop_eq_getElem_cons hlt, hgetElem]
    rw [List.drop_append_of_le_length]
    rw [List.length_take]
    omega
  unfold runBefore
  rw [hsplit, rtakeWhile_append_cons_neg _ _ hp]

end RtpBenchmarks.Foundation
