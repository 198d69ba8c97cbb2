import RtpBenchmarks.Foundation.Runs

set_option autoImplicit false

/-!
# Foundation: simulation

One system simulates another when each step of the other is a run of it, of any length, between
related states, with the same observations.  Then every schedule of the other is a schedule of it,
and what holds of all its schedules holds of the other's.
-/

namespace RtpBenchmarks.Foundation

variable {σ τ α β γ : Type}

/-- Each step that meets `D`, between states related by `R`, is a run whose steps meet `D'`. -/
def Simulates (step' : τ → β → Option τ) (step : σ → α → Option σ) (obs' : β → Option γ)
    (obs : α → Option γ) (D' : τ → β → Prop) (D : σ → α → Prop) (R : σ → τ → Prop) : Prop :=
  ∀ s a s' t, R s t → D s a → step s a = some s' →
    ∃ bs t', Run step' t bs t' ∧ EveryStep step' (fun _ t b => D' t b) t bs ∧
      bs.filterMap obs' = (obs a).toList ∧ R s' t'

section Simulation

variable {step' : τ → β → Option τ} {step : σ → α → Option σ} {obs' : β → Option γ}
  {obs : α → Option γ} {D' : τ → β → Prop} {D : σ → α → Prop} {R : σ → τ → Prop}

/-- Two schedules, one after the other. -/
theorem everyStep_append {t t' : τ} {as bs : List β}
    (has : EveryStep step' (fun _ t b => D' t b) t as) (hrun : Run step' t as t')
    (hbs : EveryStep step' (fun _ t b => D' t b) t' bs) :
    EveryStep step' (fun _ t b => D' t b) t (as ++ bs) := by
  induction as generalizing t with
  | nil => exact run_nil.mp hrun ▸ hbs
  | cons a as ih =>
    obtain ⟨hfirst, hrest⟩ := everyStep_cons.mp has
    obtain ⟨mid, hmid, htail⟩ := run_cons.mp hrun
    refine everyStep_cons.mpr ⟨hfirst, fun mid' hmid' => ?_⟩
    obtain rfl := Option.some.inj (hmid.symm.trans hmid')
    exact ih (hrest mid hmid) htail

theorem everyStep_nil {t : τ} : EveryStep step' (fun _ t b => D' t b) t [] := by
  intro done b rest mid h
  simp at h

theorem everyStep_singleton {t : τ} {b : β} (h : D' t b) :
    EveryStep step' (fun _ t b => D' t b) t [b] :=
  everyStep_cons.mpr ⟨h, fun _ _ => everyStep_nil⟩

/-- A run of the one system for a run of the other. -/
theorem Simulates.run (h : Simulates step' step obs' obs D' D R) {s s' : σ} {t : τ}
    {as : List α} (hR : R s t) (hD : EveryStep step (fun _ s a => D s a) s as)
    (hrun : Run step s as s') :
    ∃ bs t', Run step' t bs t' ∧ EveryStep step' (fun _ t b => D' t b) t bs ∧
      bs.filterMap obs' = as.filterMap obs ∧ R s' t' := by
  induction as generalizing s t with
  | nil => exact ⟨[], t, run_nil.mpr rfl, everyStep_nil, rfl, run_nil.mp hrun ▸ hR⟩
  | cons a as ih =>
    obtain ⟨mid, hstep, htail⟩ := run_cons.mp hrun
    obtain ⟨hfirst, hrest⟩ := everyStep_cons.mp hD
    obtain ⟨bs, t₁, hbs, hbsD, hobs, hR₁⟩ := h s a mid t hR hfirst hstep
    obtain ⟨cs, t₂, hcs, hcsD, hobs', hR₂⟩ := ih hR₁ (hrest mid hstep) htail
    refine ⟨bs ++ cs, t₂, run_append.mpr ⟨t₁, hbs, hcs⟩, ?_, ?_, hR₂⟩
    · exact everyStep_append hbsD hbs hcsD
    · rw [List.filterMap_append, hobs, hobs', List.filterMap_cons]
      cases obs a <;> rfl

end Simulation

end RtpBenchmarks.Foundation
