import Mathlib.Data.List.Basic

set_option autoImplicit false

/-!
# Foundation: fragments of a bounded length

A list is cut into pieces of a fixed length, the last of which may be shorter.  An empty
list is one empty piece.
-/

namespace RtpBenchmarks.Foundation

variable {α : Type}

/-- The pieces of at most `max` elements. -/
def fragments (max : Nat) (l : List α) : List (List α) :=
  if 0 < max ∧ max < l.length then l.take max :: fragments max (l.drop max) else [l]
termination_by l.length
decreasing_by
  rw [List.length_drop]
  omega

/-- The last piece. -/
def lastFragment (max : Nat) (l : List α) : List α :=
  (fragments max l).getLastD []

section Fragments

variable {max : Nat} {l : List α}

theorem fragments_eq (max : Nat) (l : List α) : fragments max l =
    if 0 < max ∧ max < l.length then l.take max :: fragments max (l.drop max) else [l] := by
  rw [fragments]

theorem fragments_of_le (h : l.length ≤ max) : fragments max l = [l] := by
  rw [fragments_eq, if_neg (by omega)]

theorem fragments_of_lt (hmax : 0 < max) (h : max < l.length) :
    fragments max l = l.take max :: fragments max (l.drop max) := by
  rw [fragments_eq, if_pos ⟨hmax, h⟩]

theorem fragments_ne_nil : fragments max l ≠ [] := by
  rw [fragments_eq]
  split_ifs <;> exact List.cons_ne_nil _ _

/-- The pieces make up the list. -/
theorem flatten_fragments : (fragments max l).flatten = l := by
  fun_induction fragments max l with
  | case1 l h ih => rw [List.flatten_cons, ih, List.take_append_drop]
  | case2 l h => exact List.flatten_singleton

theorem length_le_of_mem_fragments (hmax : 0 < max) {f : List α} (hf : f ∈ fragments max l) :
    f.length ≤ max := by
  fun_induction fragments max l with
  | case1 l h ih =>
    rcases List.mem_cons.mp hf with rfl | hf
    · exact List.length_take_le _ _
    · exact ih hf
  | case2 l h =>
    obtain rfl := List.mem_singleton.mp hf
    exact Nat.le_of_not_lt fun hlt => h ⟨hmax, hlt⟩

theorem lastFragment_mem : lastFragment max l ∈ fragments max l := by
  obtain ⟨fs, f, hfs⟩ := (List.eq_nil_or_concat' (fragments max l)).resolve_left
    fragments_ne_nil
  simp [lastFragment, hfs]

theorem lastFragment_of_le (h : l.length ≤ max) : lastFragment max l = l := by
  rw [lastFragment, fragments_of_le h]
  rfl

theorem lastFragment_of_lt (hmax : 0 < max) (h : max < l.length) :
    lastFragment max l = lastFragment max (l.drop max) := by
  obtain ⟨f, fs, hfs⟩ := List.exists_cons_of_ne_nil (@fragments_ne_nil _ max (l.drop max))
  rw [lastFragment, lastFragment, fragments_of_lt hmax h, hfs]
  rfl

/-- Only an empty list ends in an empty piece. -/
theorem lastFragment_eq_nil_iff (hmax : 0 < max) : lastFragment max l = [] ↔ l = [] := by
  fun_induction fragments max l with
  | case1 l h ih =>
    rw [lastFragment_of_lt hmax h.2, ih, List.drop_eq_nil_iff]
    constructor
    · intro hle
      exact absurd h.2 (Nat.not_lt.mpr hle)
    · rintro rfl
      exact absurd h.2 (Nat.not_lt_zero _)
  | case2 l h =>
    rw [lastFragment_of_le (Nat.le_of_not_lt fun hlt => h ⟨hmax, hlt⟩)]

end Fragments

end RtpBenchmarks.Foundation
