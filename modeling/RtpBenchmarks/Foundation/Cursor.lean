import Mathlib.Logic.Relation

set_option autoImplicit false

/-!
# Foundation: what a cursor visits

A `while` loop over a cursor is described by where it goes: it visits its start,
and from every place that meets the guard `go` it visits the place `next` behind
it.  A property of all visited places unfolds one step at a time, in the same
shape as the loop.
-/

namespace RtpBenchmarks.Foundation

variable {α : Type}

/-- The cursor that starts at `p` visits `x`. -/
def Visits (go : α → Prop) (next : α → α) (p x : α) : Prop :=
  Relation.ReflTransGen (fun y z => go y ∧ z = next y) p x

variable {go : α → Prop} {next : α → α}

theorem visits_iff {p x : α} :
    Visits go next p x ↔ x = p ∨ go p ∧ Visits go next (next p) x := by
  unfold Visits
  rw [Relation.ReflTransGen.cases_head_iff]
  constructor
  · rintro (h | ⟨y, ⟨hgo, rfl⟩, hx⟩)
    · exact Or.inl h.symm
    · exact Or.inr ⟨hgo, hx⟩
  · rintro (h | ⟨hgo, hx⟩)
    · exact Or.inl h.symm
    · exact Or.inr ⟨_, ⟨hgo, rfl⟩, hx⟩

/-- What holds of every visited place holds of the start, and of everything visited
from the next place when the loop goes on. -/
theorem forall_visits_iff {p : α} {Q : α → Prop} :
    (∀ x, Visits go next p x → Q x) ↔
      Q p ∧ (go p → ∀ x, Visits go next (next p) x → Q x) := by
  constructor
  · intro h
    exact ⟨h p (visits_iff.mpr (Or.inl rfl)),
      fun hgo x hx => h x (visits_iff.mpr (Or.inr ⟨hgo, hx⟩))⟩
  · rintro ⟨hp, hrest⟩ x hx
    rcases visits_iff.mp hx with rfl | ⟨hgo, hx⟩
    · exact hp
    · exact hrest hgo x hx

/-- A loop that stops at once visits only its start. -/
theorem visits_of_not {p x : α} (h : ¬ go p) : Visits go next p x ↔ x = p := by
  rw [visits_iff]
  simp [h]

end RtpBenchmarks.Foundation
