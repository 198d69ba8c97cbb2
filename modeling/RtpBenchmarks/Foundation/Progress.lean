import RtpBenchmarks.Foundation.Runs

set_option autoImplicit false

/-!
# Foundation: runs that end

Where every step lowers a number, a run is no longer than that number at its start, and every
run can be continued until no step can be taken.
-/

namespace RtpBenchmarks.Foundation

variable {σ α : Type} {step : σ → α → Option σ} {μ : σ → Nat} {s s' : σ}

/-- No step can be taken. -/
def Stuck (step : σ → α → Option σ) (s : σ) : Prop :=
  ∀ a, step s a = none

/-- Every step lowers `μ`. -/
def Lowers (step : σ → α → Option σ) (μ : σ → Nat) : Prop :=
  ∀ s a s', step s a = some s' → μ s' < μ s

theorem Lowers.run_length (h : Lowers step μ) {as : List α} (hrun : Run step s as s') :
    as.length + μ s' ≤ μ s := by
  refine hrun.invariant (I := fun as s' => as.length + μ s' ≤ μ s) ?_ ?_
  · exact Nat.le_of_eq (Nat.zero_add _)
  · intro done mid a mid' _ hle hstep
    have hlt := h mid a mid' hstep
    rw [List.length_append, List.length_singleton]
    omega

/-- Every run can be continued until it is stuck. -/
theorem Lowers.exists_run_stuck (h : Lowers step μ) (s : σ) :
    ∃ as s', Run step s as s' ∧ Stuck step s' := by
  -- induction on the number, for all states at once
  induction hμ : μ s using Nat.strongRecOn generalizing s with
  | ind n ih =>
    by_cases hstuck : Stuck step s
    · exact ⟨[], s, run_nil.mpr rfl, hstuck⟩
    · obtain ⟨a, ha⟩ := not_forall.mp hstuck
      obtain ⟨mid, hmid⟩ := Option.ne_none_iff_exists'.mp ha
      obtain ⟨as, s', hrun, hs'⟩ := ih (μ mid) (hμ ▸ h s a mid hmid) mid rfl
      exact ⟨a :: as, s', run_cons.mpr ⟨mid, hmid, hrun⟩, hs'⟩

end RtpBenchmarks.Foundation
