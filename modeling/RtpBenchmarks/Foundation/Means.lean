import Mathlib.Algebra.Order.BigOperators.Group.List
import Mathlib.Algebra.Order.Field.Basic
import Mathlib.Tactic.FieldSimp
import Mathlib.Tactic.Linarith
import Mathlib.Tactic.Positivity
import Mathlib.Tactic.Ring

set_option autoImplicit false

/-!
# Foundation: two ways to take a mean

The reciprocal of a mean is at most the mean of the reciprocals, and they are equal only where
all numbers are.  Each reciprocal lies above the tangent at the mean, and the tangents add up
to the reciprocal of the mean.
-/

namespace RtpBenchmarks.Means

variable {K : Type} [Field K]

/-! ## Tangents -/

/-- The tangent of `1 / x` at `m`. -/
def tangentAt (m x : K) : K :=
  2 / m - x / m ^ 2

theorem one_div_sub_tangentAt {m x : K} (hm : m ≠ 0) (hx : x ≠ 0) :
    1 / x - tangentAt m x = (x - m) ^ 2 / (x * m ^ 2) := by
  unfold tangentAt
  field_simp
  ring

theorem tangentAt_eq_iff {m x : K} (hm : m ≠ 0) (hx : x ≠ 0) : tangentAt m x = 1 / x ↔ x = m := by
  have hgap := one_div_sub_tangentAt hm hx
  have hzero : (x - m) ^ 2 / (x * m ^ 2) = 0 ↔ x = m := by
    rw [div_eq_zero_iff, or_iff_left (mul_ne_zero hx (pow_ne_zero 2 hm)), sq_eq_zero_iff,
      sub_eq_zero]
  rw [← hzero, ← hgap, sub_eq_zero, eq_comm]

/-- Sums of terms of which one is at most the other agree only term by term. -/
theorem sum_map_eq_iff_of_le {α M : Type} [AddCommMonoid M] [PartialOrder M]
    [IsOrderedCancelAddMonoid M] {f g : α → M} {xs : List α} (h : ∀ x ∈ xs, f x ≤ g x) :
    (xs.map f).sum = (xs.map g).sum ↔ ∀ x ∈ xs, f x = g x := by
  induction xs with
  | nil => simp
  | cons x xs ih =>
    obtain ⟨hx, hxs⟩ := List.forall_mem_cons.mp h
    have hsum : (xs.map f).sum ≤ (xs.map g).sum := List.sum_le_sum hxs
    rw [List.forall_mem_cons, ← ih hxs, List.map_cons, List.map_cons, List.sum_cons,
      List.sum_cons, add_eq_add_iff_eq_and_eq hx hsum]

variable [LinearOrder K] [IsStrictOrderedRing K]

theorem tangentAt_le {m x : K} (hm : m ≠ 0) (hx : 0 < x) : tangentAt m x ≤ 1 / x := by
  have hgap := one_div_sub_tangentAt hm hx.ne'
  have hpos : 0 ≤ (x - m) ^ 2 / (x * m ^ 2) := by positivity
  linarith

section Reciprocals

variable {xs : List K}

/-- The tangents at the mean add up to the number of terms times the reciprocal of the mean. -/
theorem sum_tangentAt (hsum : xs.sum ≠ 0) :
    (xs.map (tangentAt (xs.sum / xs.length))).sum = xs.length * (xs.length / xs.sum) := by
  have hlength : (xs.length : K) ≠ 0 := by
    intro h
    have hnil : xs = [] := List.length_eq_zero_iff.mp (Nat.cast_eq_zero.mp h)
    exact hsum (by rw [hnil, List.sum_nil])
  have hterms (m : K) (ys : List K) :
      (ys.map (tangentAt m)).sum = ys.length * (2 / m) - ys.sum / m ^ 2 := by
    induction ys with
    | nil => simp
    | cons y ys ih =>
      rw [List.map_cons, List.sum_cons, ih, tangentAt, List.sum_cons, List.length_cons]
      push_cast
      ring
  rw [hterms]
  field_simp
  ring

theorem sum_ne_zero_of_pos (hpos : ∀ x ∈ xs, 0 < x) (hne : xs ≠ []) : xs.sum ≠ 0 := by
  cases xs with
  | nil => exact absurd rfl hne
  | cons x xs =>
    obtain ⟨hx, hxs⟩ := List.forall_mem_cons.mp hpos
    have hrest : 0 ≤ xs.sum := List.sum_nonneg fun y hy => (hxs y hy).le
    rw [List.sum_cons]
    linarith

/-- The reciprocal of the mean of positive numbers is at most the mean of their reciprocals. -/
theorem length_div_sum_le (hpos : ∀ x ∈ xs, 0 < x) (hne : xs ≠ []) :
    xs.length / xs.sum ≤ (xs.map fun x => 1 / x).sum / xs.length := by
  have hsum := sum_ne_zero_of_pos hpos hne
  have hlength : (0 : K) < xs.length := Nat.cast_pos.mpr (List.length_pos_of_ne_nil hne)
  have hle : (xs.map (tangentAt (xs.sum / xs.length))).sum ≤ (xs.map fun x => 1 / x).sum :=
    List.sum_le_sum fun x hx => tangentAt_le (div_ne_zero hsum hlength.ne') (hpos x hx)
  rw [sum_tangentAt hsum] at hle
  rwa [le_div_iff₀ hlength, mul_comm]

/-- They are equal only where all numbers are. -/
theorem length_div_sum_eq_iff (hpos : ∀ x ∈ xs, 0 < x) (hne : xs ≠ []) :
    xs.length / xs.sum = (xs.map fun x => 1 / x).sum / xs.length ↔
      ∀ x ∈ xs, ∀ y ∈ xs, x = y := by
  have hsum := sum_ne_zero_of_pos hpos hne
  have hlength : (0 : K) < xs.length := Nat.cast_pos.mpr (List.length_pos_of_ne_nil hne)
  have hmean : xs.sum / xs.length ≠ 0 := div_ne_zero hsum hlength.ne'
  have hterms := sum_map_eq_iff_of_le (g := fun x => 1 / x)
    fun x hx => tangentAt_le hmean (hpos x hx)
  rw [sum_tangentAt hsum] at hterms
  rw [eq_div_iff hlength.ne', mul_comm, hterms]
  constructor
  · intro h x hx y hy
    have hx' := (tangentAt_eq_iff hmean (hpos x hx).ne').mp (h x hx)
    have hy' := (tangentAt_eq_iff hmean (hpos y hy).ne').mp (h y hy)
    rw [hx', hy']
  · intro h x hx
    refine (tangentAt_eq_iff hmean (hpos x hx).ne').mpr ?_
    have hconst : xs = List.replicate xs.length x :=
      List.eq_replicate_iff.mpr ⟨rfl, fun y hy => h y hy x hx⟩
    rw [eq_div_iff hlength.ne', mul_comm]
    conv_rhs => rw [hconst]
    rw [List.sum_replicate, nsmul_eq_mul]

end Reciprocals

end RtpBenchmarks.Means
