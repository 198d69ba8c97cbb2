import Mathlib.Data.List.Basic

set_option autoImplicit false

/-!
# Foundation: loops that read on

The body of a loop over the items of an input takes one item, may read on, and leaves the
rest to the next round.  It never gives an item back, so the loop ends.
-/

namespace RtpBenchmarks.Foundation

/-- The body of a loop: from an item and those behind it, what it makes, if anything, and the
items that are left; `none` where the program dies. -/
structure ReadLoop (ι α : Type) where
  body : ι → List ι → Option (Option α × List ι)
  length_le : ∀ {item : ι} {rest rest' : List ι} {made : Option α},
    body item rest = some (made, rest') → rest'.length ≤ rest.length

namespace ReadLoop

variable {ι α β : Type} {loop : ReadLoop ι α} {item : ι} {items rest rest' : List ι}
  {made : Option α}

/-- What the loop makes of all items. -/
def run (loop : ReadLoop ι α) : List ι → Option (List α)
  | [] => some []
  | item :: rest =>
    match _h : loop.body item rest with
    | none => none
    | some (made, rest') => (run loop rest').map (made.toList ++ ·)
termination_by items => items.length
decreasing_by exact Nat.lt_succ_of_le (loop.length_le (by assumption))

@[simp] theorem run_nil : loop.run [] = some [] := by rw [run]

theorem run_cons (h : loop.body item rest = some (made, rest')) :
    loop.run (item :: rest) = (loop.run rest').map (made.toList ++ ·) := by
  rw [run]
  split
  · rename_i hnone
    rw [h] at hnone
    cases hnone
  · rename_i hsome
    rw [h] at hsome
    cases hsome
    rfl

theorem run_cons_none (h : loop.body item rest = none) : loop.run (item :: rest) = none := by
  rw [run]
  split
  · rfl
  · rename_i hsome
    rw [h] at hsome
    cases hsome

theorem map_toList_append_eq_some {made : Option α} {found : Option (List α)} {all : List α}
    (h : found.map (made.toList ++ ·) = some all) :
    ∃ es, found = some es ∧ all = made.toList ++ es := by
  obtain ⟨es, hes, rfl⟩ := Option.map_eq_some_iff.mp h
  exact ⟨es, hes, rfl⟩

/-- A run of the loop that makes something of some items has gone through its body. -/
theorem exists_body_of_run {all : List α} (h : loop.run (item :: rest) = some all) :
    ∃ made rest' es, loop.body item rest = some (made, rest') ∧ loop.run rest' = some es ∧
      all = made.toList ++ es := by
  cases hbody : loop.body item rest with
  | none =>
    rw [run_cons_none hbody] at h
    cases h
  | some m =>
    obtain ⟨made, rest'⟩ := m
    rw [run_cons hbody] at h
    obtain ⟨es, hes, rfl⟩ := map_toList_append_eq_some h
    exact ⟨made, rest', es, rfl, hes, rfl⟩

/-- An input of blocks that are read one by one. -/
theorem run_flatMap {blocks : List β} {write : β → List ι} {entry : β → Option α}
    (h : ∀ b ∈ blocks, ∀ rest,
      loop.run (write b ++ rest) = (loop.run rest).map ((entry b).toList ++ ·)) :
    loop.run (blocks.flatMap write) = some (blocks.filterMap entry) := by
  induction blocks with
  | nil => exact run_nil
  | cons b blocks ih =>
    obtain ⟨hb, hblocks⟩ := List.forall_mem_cons.mp h
    rw [List.flatMap_cons, hb, ih hblocks, Option.map_some, List.filterMap_cons]
    cases entry b <;> rfl

/-- What holds of everything that the body makes holds of all that the loop makes. -/
theorem forall_of_run {P : α → Prop}
    (hbody : ∀ {item : ι} {rest rest' : List ι} {a : α},
      loop.body item rest = some (some a, rest') → P a)
    {all : List α} (h : loop.run items = some all) : ∀ a ∈ all, P a := by
  induction hn : items.length using Nat.strongRecOn generalizing items all with
  | ind n ih =>
    cases items with
    | nil =>
      rw [run_nil] at h
      obtain rfl := Option.some.inj h
      exact List.forall_mem_nil P
    | cons item rest =>
      obtain ⟨made, rest', es, hitem, hes, rfl⟩ := exists_body_of_run h
      have hle := loop.length_le hitem
      have hrest := ih rest'.length (by simp only [List.length_cons] at hn; omega) hes rfl
      refine List.forall_mem_append.mpr ⟨fun a ha => ?_, hrest⟩
      rw [Option.mem_toList.mp ha] at hitem
      exact hbody hitem

/-- A weight of the input that pays for what is made: at most that much of it is made. -/
theorem countP_run_le {p : α → Bool} {weight : List ι → Nat} {all : List α}
    (hweight : ∀ {item : ι} {rest rest' : List ι} {made : Option α},
      loop.body item rest = some (made, rest') →
        made.toList.countP p + weight rest' ≤ weight (item :: rest))
    (h : loop.run items = some all) : all.countP p ≤ weight items := by
  induction hn : items.length using Nat.strongRecOn generalizing items all with
  | ind n ih =>
    cases items with
    | nil =>
      rw [run_nil] at h
      obtain rfl := Option.some.inj h
      exact Nat.zero_le _
    | cons item rest =>
      obtain ⟨made, rest', es, hbody, hes, rfl⟩ := exists_body_of_run h
      have hle := loop.length_le hbody
      have hrest := ih rest'.length (by simp only [List.length_cons] at hn; omega) hes rfl
      have hitem := hweight hbody
      rw [List.countP_append]
      omega

end ReadLoop

end RtpBenchmarks.Foundation
