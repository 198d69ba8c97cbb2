import Mathlib.Algebra.BigOperators.Group.Finset.Piecewise
import Mathlib.Algebra.GroupWithZero.Nat
import Mathlib.Data.List.Dedup

set_option autoImplicit false

/-!
# Foundation: pairs in groups

Pairs with the same first part make a group.  A list of groups has every first part once, with
the second parts that belong to it in ascending order.
-/

namespace RtpBenchmarks.Foundation

variable {α : Type}

/-- The groups of the pairs. -/
structure Grouped (pairs : List (α × Nat)) (groups : List (α × List Nat)) : Prop where
  nodup : (groups.map Prod.fst).Nodup
  nonempty : ∀ g ∈ groups, g.2 ≠ []
  ascending : ∀ g ∈ groups, g.2.Pairwise (· < ·)
  mem_iff : ∀ p, p ∈ pairs ↔ ∃ g ∈ groups, g.1 = p.1 ∧ p.2 ∈ g.2

/-- The pairs of the groups. -/
def ungroup (groups : List (α × List Nat)) : List (α × Nat) :=
  groups.flatMap fun g => g.2.map fun n => (g.1, n)

theorem mem_ungroup {groups : List (α × List Nat)} {p : α × Nat} :
    p ∈ ungroup groups ↔ ∃ g ∈ groups, g.1 = p.1 ∧ p.2 ∈ g.2 := by
  simp only [ungroup, List.mem_flatMap, List.mem_map]
  constructor
  · rintro ⟨g, hg, n, hn, rfl⟩
    exact ⟨g, hg, rfl, hn⟩
  · rintro ⟨g, hg, hfst, hsnd⟩
    exact ⟨g, hg, p.2, hsnd, Prod.ext hfst rfl⟩

/-- Groups whose first parts are in an order, and whose pairs are too, come out in it. -/
theorem pairwise_ungroup {R : α × Nat → α × Nat → Prop} {groups : List (α × List Nat)}
    (hgroup : ∀ g ∈ groups, g.2.Pairwise fun n m => R (g.1, n) (g.1, m))
    (hgroups : groups.Pairwise fun g g' => ∀ n ∈ g.2, ∀ m ∈ g'.2, R (g.1, n) (g'.1, m)) :
    (ungroup groups).Pairwise R := by
  rw [ungroup, List.pairwise_flatMap]
  refine ⟨fun g hg => List.pairwise_map.mpr (hgroup g hg), hgroups.imp ?_⟩
  simp only [List.forall_mem_map]
  exact id

theorem Grouped.nodup_ungroup {pairs : List (α × Nat)} {groups : List (α × List Nat)}
    (h : Grouped pairs groups) : (ungroup groups).Nodup := by
  refine pairwise_ungroup (fun g hg => (h.ascending g hg).imp ?_)
    ((List.pairwise_map.mp h.nodup).imp ?_)
  · intro n m hlt heq
    exact Nat.ne_of_lt hlt (congrArg Prod.snd heq)
  · intro g g' hne n _ m _ heq
    have hfst := congrArg Prod.fst heq
    exact hne hfst

section Group

variable [DecidableEq α]

/-- The second parts that belong to a first part. -/
def secondsOf (a : α) (pairs : List (α × Nat)) : List Nat :=
  ((pairs.filter fun p => p.1 = a).map Prod.snd).mergeSort

/-- Groups of the pairs, in an order of the first parts. -/
def group (le : α → α → Bool) (pairs : List (α × Nat)) : List (α × List Nat) :=
  ((pairs.map Prod.fst).dedup.mergeSort le).map fun a => (a, secondsOf a pairs)

theorem mem_secondsOf {a : α} {pairs : List (α × Nat)} {n : Nat} :
    n ∈ secondsOf a pairs ↔ (a, n) ∈ pairs := by
  simp only [secondsOf, List.mem_mergeSort, List.mem_map, List.mem_filter, decide_eq_true_eq]
  constructor
  · rintro ⟨p, ⟨hp, rfl⟩, rfl⟩
    exact hp
  · exact fun h => ⟨(a, n), ⟨h, rfl⟩, rfl⟩

theorem pairwise_secondsOf {pairs : List (α × Nat)} (h : pairs.Nodup) (a : α) :
    (secondsOf a pairs).Pairwise (· < ·) := by
  have hnodup : (secondsOf a pairs).Nodup := by
    refine (List.mergeSort_perm _ _).nodup_iff.mpr (List.Nodup.map_on ?_ (h.filter _))
    rintro p hp q hq hsnd
    have hp' := of_decide_eq_true (List.mem_filter.mp hp).2
    have hq' := of_decide_eq_true (List.mem_filter.mp hq).2
    exact Prod.ext (hp'.trans hq'.symm) hsnd
  have hsorted : (secondsOf a pairs).Pairwise fun n m => decide (n ≤ m) = true := by
    refine List.pairwise_mergeSort (fun _ _ _ hle hle' => ?_) (fun n m => ?_) _
    · exact decide_eq_true (Nat.le_trans (of_decide_eq_true hle) (of_decide_eq_true hle'))
    · simpa using Nat.le_total n m
  exact (hsorted.and hnodup).imp fun ⟨hle, hne⟩ => Nat.lt_of_le_of_ne (of_decide_eq_true hle) hne

theorem map_fst_group (le : α → α → Bool) (pairs : List (α × Nat)) :
    (group le pairs).map Prod.fst = (pairs.map Prod.fst).dedup.mergeSort le := by
  rw [group, List.map_map]
  exact List.map_id _

/-- The groups of pairs. -/
theorem grouped_group (le : α → α → Bool) {pairs : List (α × Nat)} (h : pairs.Nodup) :
    Grouped pairs (group le pairs) := by
  have hmem {g : α × List Nat} : g ∈ group le pairs ↔
      (∃ n, (g.1, n) ∈ pairs) ∧ g.2 = secondsOf g.1 pairs := by
    simp only [group, List.mem_map, List.mem_mergeSort, List.mem_dedup]
    constructor
    · rintro ⟨a, ⟨p, hp, rfl⟩, rfl⟩
      exact ⟨⟨p.2, hp⟩, rfl⟩
    · rintro ⟨⟨n, hn⟩, hg⟩
      exact ⟨g.1, ⟨(g.1, n), hn, rfl⟩, Prod.ext rfl hg.symm⟩
  refine ⟨?_, ?_, ?_, ?_⟩
  · rw [map_fst_group]
    exact (List.mergeSort_perm _ _).nodup_iff.mpr (List.nodup_dedup _)
  · intro g hg
    obtain ⟨⟨n, hn⟩, hseconds⟩ := hmem.mp hg
    rw [hseconds]
    exact List.ne_nil_of_mem (mem_secondsOf.mpr hn)
  · intro g hg
    rw [(hmem.mp hg).2]
    exact pairwise_secondsOf h g.1
  · intro p
    constructor
    · intro hp
      exact ⟨(p.1, secondsOf p.1 pairs), hmem.mpr ⟨⟨p.2, hp⟩, rfl⟩, rfl, mem_secondsOf.mpr hp⟩
    · rintro ⟨g, hg, hfst, hsnd⟩
      rw [(hmem.mp hg).2, mem_secondsOf, hfst] at hsnd
      exact hsnd

end Group

/-- Pairs whose first parts are below a bound, counted by them. -/
theorem sum_countP_fst {n : Nat} {pairs : List (Nat × α)} (h : ∀ p ∈ pairs, p.1 < n) :
    ((List.range n).map fun i => pairs.countP (·.1 = i)).sum = pairs.length := by
  induction pairs with
  | nil => simp
  | cons p pairs ih =>
    obtain ⟨hp, hpairs⟩ := List.forall_mem_cons.mp h
    have hone : ((List.range n).map fun i => if p.1 = i then 1 else 0).sum = 1 := by
      change ∑ i ∈ Finset.range n, (if p.1 = i then 1 else 0) = 1
      rw [Finset.sum_ite_eq, if_pos (Finset.mem_range.mpr hp)]
    simp only [List.countP_cons, decide_eq_true_eq, List.sum_map_add, ih hpairs, hone,
      List.length_cons]

end RtpBenchmarks.Foundation
