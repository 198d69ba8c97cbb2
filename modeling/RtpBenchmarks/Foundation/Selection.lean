import Mathlib.Data.List.MinMax

set_option autoImplicit false

/-!
# Foundation: the best of a list

A loop keeps the largest value it has seen and the item that has it, and begins with the value
zero and no item.  What it keeps is the first item with the largest value, if any value is
positive.
-/

namespace RtpBenchmarks.Foundation

/-- The largest value so far and the item that has it. -/
structure Best (α K : Type) where
  value : K
  item : Option α
  deriving DecidableEq

variable {α β K : Type} [LinearOrder K] [Zero K]

/-- Nothing has been seen yet. -/
def Best.start : Best α K where
  value := 0
  item := none

/-- A larger value takes the place of the one that was kept. -/
def Best.update (b : Best α K) (value : K) (item : α) : Best α K :=
  if b.value < value then { value, item := some item } else b

/-- The items with a positive value. -/
def positive (value : α → K) (xs : List α) : List α :=
  xs.filter fun x => decide (0 < value x)

/-- The loop over the items. -/
def best (value : α → K) (item : α → β) (xs : List α) : Best β K :=
  xs.foldl (fun b x => b.update (value x) (item x)) .start

variable {value : α → K} {item : α → β} {xs : List α} {x y : α}

theorem mem_positive : x ∈ positive value xs ↔ x ∈ xs ∧ 0 < value x := by
  simp [positive]

theorem positive_eq_nil : positive value xs = [] ↔ ∀ x ∈ xs, value x ≤ 0 := by
  simp [positive]

theorem positive_concat (xs : List α) (x : α) :
    positive value (xs ++ [x]) = positive value xs ++ if 0 < value x then [x] else [] := by
  rw [positive, List.filter_append]
  split_ifs with hx <;> simp [positive, hx]

/-- The first of the largest positive values is kept. -/
theorem best_eq_argmax :
    best value item xs =
      match (positive value xs).argmax value with
      | none => .start
      | some x => { value := value x, item := some (item x) } := by
  induction xs using List.reverseRecOn with
  | nil => rfl
  | append_singleton xs x ih =>
    rw [best, List.foldl_append, ← best, ih, positive_concat]
    split_ifs with hx
    · rw [List.argmax_concat]
      cases hmax : (positive value xs).argmax value with
      | none => simp [Best.update, Best.start, hx]
      | some y =>
        simp only [List.foldl_cons, List.foldl_nil, Best.update]
        split_ifs <;> rfl
    · rw [List.append_nil]
      cases hmax : (positive value xs).argmax value with
      | none => simp [Best.update, Best.start, hx]
      | some y =>
        have hy := (mem_positive.mp (List.argmax_mem hmax)).2
        have hle : ¬ value y < value x := not_lt_of_ge ((not_lt.mp hx).trans hy.le)
        simp only [List.foldl_cons, List.foldl_nil, Best.update, if_neg hle]

/-- Nothing is kept exactly when no value is positive. -/
theorem item_best_eq_none : (best value item xs).item = none ↔ ∀ x ∈ xs, value x ≤ 0 := by
  rw [best_eq_argmax, ← positive_eq_nil, ← @List.argmax_eq_none α K _ _ value]
  cases (positive value xs).argmax value <;> simp [Best.start]

/-- What is kept is an item of a positive value that no other exceeds. -/
theorem exists_of_item_best {b : β} (h : (best value item xs).item = some b) :
    ∃ x ∈ xs, item x = b ∧ 0 < value x ∧ ∀ y ∈ xs, value y ≤ value x := by
  rw [best_eq_argmax] at h
  cases hmax : (positive value xs).argmax value with
  | none =>
    rw [hmax] at h
    cases h
  | some x =>
    rw [hmax] at h
    obtain ⟨hmem, hpos⟩ := mem_positive.mp (List.argmax_mem hmax)
    refine ⟨x, hmem, Option.some.inj h, hpos, fun y hy => ?_⟩
    by_cases hypos : 0 < value y
    · exact List.le_of_mem_argmax (mem_positive.mpr ⟨hy, hypos⟩) hmax
    · exact (not_lt.mp hypos).trans hpos.le

/-- A largest value in front of all others is kept. -/
theorem item_best_cons (hpos : 0 < value x) (hmax : ∀ y ∈ xs, value y ≤ value x) :
    (best value item (x :: xs)).item = some (item x) := by
  have hcons : positive value (x :: xs) = x :: positive value xs := by simp [positive, hpos]
  rw [best_eq_argmax, hcons, List.argmax_cons]
  cases hrest : (positive value xs).argmax value with
  | none => rfl
  | some y =>
    have hle := hmax y (mem_positive.mp (List.argmax_mem hrest)).1
    simp only [if_neg (not_lt_of_ge hle)]

end RtpBenchmarks.Foundation
