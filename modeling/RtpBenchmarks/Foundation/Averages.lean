import Mathlib.Algebra.Order.Field.Rat
import Mathlib.Data.List.Induction
import Mathlib.Tactic.FieldSimp
import Mathlib.Tactic.Linarith

set_option autoImplicit false

/-!
# Foundation: averages

An average is kept as a total and a count; its value is their quotient, and there is
none when nothing has been counted.  Two averages over different things combine to the
average over both, which lies between the two.
-/

namespace RtpBenchmarks.Foundation

/-- A total and the number of things it is the total of. -/
structure Average where
  total : Nat
  count : Nat
  deriving DecidableEq, Repr

namespace Average

/-- The quotient; `none` stands for the NaN of a division by zero. -/
def value (a : Average) : Option ℚ :=
  if a.count = 0 then none else some (a.total / a.count)

/-- The average over the things of both. -/
def combine (a b : Average) : Average where
  total := a.total + b.total
  count := a.count + b.count

/-- One thing more. -/
def add (a : Average) (w : Nat) : Average where
  total := a.total + w
  count := a.count + 1

theorem combine_add_left (a b : Average) (w : Nat) :
    (a.add w).combine b = (a.combine b).add w := by
  simp only [combine, add, mk.injEq]
  omega

theorem combine_add_right (a b : Average) (w : Nat) :
    a.combine (b.add w) = (a.combine b).add w := by
  simp only [combine, add, mk.injEq]
  omega

theorem value_of_count_ne_zero {a : Average} (h : a.count ≠ 0) :
    a.value = some (a.total / a.count : ℚ) :=
  if_neg h

theorem value_eq_none_iff {a : Average} : a.value = none ↔ a.count = 0 := by
  simp [value]

theorem count_pos_of_value {a : Average} {x : ℚ} (h : a.value = some x) :
    (0 : ℚ) < a.count := by
  have hne : a.count ≠ 0 := fun h0 => by simp [value_eq_none_iff.mpr h0] at h
  exact Nat.cast_pos.mpr (Nat.pos_of_ne_zero hne)

/-- The total is the value as often as there are things. -/
theorem total_of_value {a : Average} {x : ℚ} (h : a.value = some x) :
    (a.total : ℚ) = x * a.count := by
  have hpos := count_pos_of_value h
  rw [value_of_count_ne_zero (Nat.cast_pos.mp hpos).ne', Option.some.injEq] at h
  rw [← h, div_mul_cancel₀ _ hpos.ne']

/-- Averages of something are equal when their products crosswise are. -/
theorem value_eq_value_iff {a b : Average} (ha : a.count ≠ 0) (hb : b.count ≠ 0) :
    a.value = b.value ↔ a.total * b.count = b.total * a.count := by
  have ha' : (a.count : ℚ) ≠ 0 := Nat.cast_ne_zero.mpr ha
  have hb' : (b.count : ℚ) ≠ 0 := Nat.cast_ne_zero.mpr hb
  rw [value_of_count_ne_zero ha, value_of_count_ne_zero hb, Option.some.injEq,
    div_eq_div_iff ha' hb']
  exact_mod_cast Iff.rfl

/-- The average over both lies between the two. -/
theorem combine_between {a b : Average} {x y : ℚ} (ha : a.value = some x)
    (hb : b.value = some y) :
    ∃ z, (combine a b).value = some z ∧ min x y ≤ z ∧ z ≤ max x y := by
  have hx := total_of_value ha
  have hy := total_of_value hb
  have hca := count_pos_of_value ha
  have hcb := count_pos_of_value hb
  have hcount : (combine a b).count ≠ 0 := by
    have := Nat.cast_pos.mp hca
    simp only [combine]
    omega
  refine ⟨_, value_of_count_ne_zero hcount, ?_, ?_⟩
  · simp only [combine]
    push_cast
    rw [le_div_iff₀ (by linarith), hx, hy, mul_add]
    exact add_le_add (mul_le_mul_of_nonneg_right (min_le_left x y) hca.le)
      (mul_le_mul_of_nonneg_right (min_le_right x y) hcb.le)
  · simp only [combine]
    push_cast
    rw [div_le_iff₀ (by linarith), hx, hy, mul_add]
    exact add_le_add (mul_le_mul_of_nonneg_right (le_max_left x y) hca.le)
      (mul_le_mul_of_nonneg_right (le_max_right x y) hcb.le)

/-! ## Totals of 64 bits -/

/-- The average as a program keeps it: a total that wraps around, and a counter. -/
structure Stored (a : Average) (total count : Nat) : Prop where
  total : total = a.total % 2 ^ 64
  count : count = a.count

theorem Stored.add {a : Average} {t c : Nat} (h : a.Stored t c) (w : Nat) :
    (a.add w).Stored ((t + w) % 2 ^ 64) (c + 1) := by
  constructor
  · rw [h.total, Nat.mod_add_mod]
    rfl
  · rw [h.count]
    rfl

/-- A total that has not wrapped around. -/
theorem Stored.eq_of_lt {a : Average} {t c : Nat} (h : a.Stored t c)
    (hlt : a.total < 2 ^ 64) : { total := t, count := c } = a := by
  rw [h.total, h.count, Nat.mod_eq_of_lt hlt]

/-! ## Averages over a list -/

section OfList

variable {α : Type} {p q : α → Bool} {w : α → Nat} {xs : List α}

/-- The average of the weights of those that `p` selects. -/
def ofList (p : α → Bool) (w : α → Nat) (xs : List α) : Average where
  total := ((xs.filter p).map w).sum
  count := (xs.filter p).length

theorem ofList_concat (p : α → Bool) (w : α → Nat) (xs : List α) (x : α) :
    ofList p w (xs ++ [x]) = if p x then (ofList p w xs).add (w x) else ofList p w xs := by
  cases hx : p x <;> simp [ofList, add, List.filter_append, hx]

/-- Selections of different things combine. -/
theorem ofList_combine (hdisjoint : ∀ x, p x → ¬ q x) :
    (ofList p w xs).combine (ofList q w xs) = ofList (fun x => p x || q x) w xs := by
  induction xs using List.reverseRecOn with
  | nil => rfl
  | append_singleton xs x ih =>
    simp only [ofList_concat]
    cases hp : p x with
    | true =>
      have hq : q x = false := Bool.eq_false_iff.mpr (hdisjoint x hp)
      simp only [hq, Bool.or_false, if_true, Bool.false_eq_true, if_false, combine_add_left, ih]
    | false =>
      cases hq : q x with
      | true => simp only [Bool.or_true, if_true, Bool.false_eq_true, if_false,
          combine_add_right, ih]
      | false => exact ih

theorem ofList_total_le {b : Nat} (h : ∀ x ∈ xs, w x ≤ b) :
    (ofList p w xs).total ≤ xs.length * b := by
  induction xs using List.reverseRecOn with
  | nil => exact Nat.zero_le _
  | append_singleton xs x ih =>
    have hxs := ih fun y hy => h y (List.mem_append_left _ hy)
    have hx := h x (by simp)
    rw [ofList_concat, List.length_append, List.length_singleton, Nat.add_mul, Nat.one_mul]
    split_ifs
    · exact Nat.add_le_add hxs hx
    · exact Nat.le_add_right_of_le hxs

theorem ofList_count_le : (ofList p w xs).count ≤ xs.length :=
  List.length_filter_le p xs

theorem ofList_count_eq_length_iff : (ofList p w xs).count = xs.length ↔ ∀ x ∈ xs, p x :=
  List.length_filter_eq_length_iff

theorem ofList_count_eq_zero_iff : (ofList p w xs).count = 0 ↔ ∀ x ∈ xs, ¬ p x := by
  simp [ofList]

theorem ofList_total_eq_zero_iff :
    (ofList p w xs).total = 0 ↔ ∀ x ∈ xs, p x → w x = 0 := by
  simp only [ofList, List.sum_eq_zero_iff_forall_eq_nat, List.forall_mem_map, List.mem_filter,
    and_imp]

theorem ofList_append (p : α → Bool) (w : α → Nat) (xs ys : List α) :
    ofList p w (xs ++ ys) = (ofList p w xs).combine (ofList p w ys) := by
  simp [ofList, combine]

/-- The average of the weights of all. -/
def ofAll (w : α → Nat) (xs : List α) : Average :=
  ofList (fun _ => true) w xs

@[simp] theorem ofAll_count (w : α → Nat) (xs : List α) : (ofAll w xs).count = xs.length := by
  simp [ofAll, ofList]

/-- All things are selected or left out. -/
theorem ofList_combine_not (p : α → Bool) (w : α → Nat) (xs : List α) :
    (ofList p w xs).combine (ofList (fun x => !p x) w xs) = ofAll w xs := by
  rw [ofList_combine (by simp)]
  simp [ofAll]

end OfList

end Average

end RtpBenchmarks.Foundation
