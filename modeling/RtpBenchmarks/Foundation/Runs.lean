import Mathlib.Data.List.Induction

set_option autoImplicit false

/-!
# Foundation: runs

A run feeds a list of inputs to a step function, one by one.  An invariant may
speak of the inputs seen so far: it holds of the initial state and no input, and a
step from a state that satisfies it for `done` satisfies it for `done ++ [a]`.  It
then holds after the whole run for the whole list.

A concurrent system is a step function into `Option`: the inputs are the atomic
steps of its parties in the order in which they are taken, and `none` is a step
that its party cannot take in that state.  `Run` is a schedule that can be taken,
`EveryStep` a condition that each of its steps meets in the state before it, and
`EveryState` a property of the states between them.
-/

namespace RtpBenchmarks.Foundation

variable {ε σ α : Type}

/-! ## Steps that may fault -/

/-- Invariants of runs of a step function that may fault: a step that never faults
where the invariant holds makes a run that never faults. -/
theorem foldlM_invariant {step : σ → α → Except ε σ} {I : List α → σ → Prop} {s : σ}
    (hinit : I [] s)
    (hstep : ∀ done s a, I done s → ∃ s', step s a = .ok s' ∧ I (done ++ [a]) s')
    (as : List α) : ∃ s', as.foldlM step s = .ok s' ∧ I as s' := by
  induction as using List.reverseRecOn with
  | nil => exact ⟨s, rfl, hinit⟩
  | append_singleton as a ih =>
    obtain ⟨s₁, hrun, hinv⟩ := ih
    obtain ⟨s₂, hs₂, hinv₂⟩ := hstep as s₁ a hinv
    refine ⟨s₂, ?_, hinv₂⟩
    rw [List.foldlM_append, hrun]
    change (List.foldlM step s₁ [a] : Except ε σ) = .ok s₂
    rw [List.foldlM_cons, hs₂]
    rfl

/-- A loop in a loop is a loop over all elements. -/
theorem foldlM_flatMap {β : Type} (f : σ → β → Except ε σ) (g : α → List β) (as : List α) (s : σ) :
    (as.flatMap g).foldlM f s = as.foldlM (fun s a => (g a).foldlM f s) s := by
  induction as generalizing s with
  | nil => rfl
  | cons a as ih =>
    rw [List.flatMap_cons, List.foldlM_append, List.foldlM_cons]
    exact congrArg ((g a).foldlM f s >>= ·) (funext ih)

/-! ## Schedules -/

/-- The schedule `as` can be taken from `s` and ends in `s'`. -/
def Run (step : σ → α → Option σ) (s : σ) (as : List α) (s' : σ) : Prop :=
  as.foldlM step s = some s'

instance [DecidableEq σ] (step : σ → α → Option σ) (s : σ) (as : List α) (s' : σ) :
    Decidable (Run step s as s') :=
  inferInstanceAs (Decidable (as.foldlM step s = some s'))

/-- A loop whose iterations may fault, as a schedule. -/
theorem run_toOption {f : σ → α → Except ε σ} {s s' : σ} {as : List α} :
    Run (fun s a => (f s a).toOption) s as s' ↔ as.foldlM f s = .ok s' := by
  induction as generalizing s with
  | nil => exact ⟨fun h => congrArg Except.ok (Option.some.inj h),
      fun h => congrArg some (Except.ok.inj h)⟩
  | cons a as ih =>
    rw [Run, List.foldlM_cons, List.foldlM_cons]
    cases f s a with
    | error e => exact iff_of_false (fun h => nomatch h) (fun h => nomatch h)
    | ok mid => exact ih

/-- Every step of the schedule `as` from `s` meets `C`, a condition on the steps
taken before it, the state it is taken in and the step. -/
def EveryStep (step : σ → α → Option σ) (C : List α → σ → α → Prop) (s : σ)
    (as : List α) : Prop :=
  ∀ done a rest mid, as = done ++ a :: rest → Run step s done mid → C done mid a

/-- Every state that the schedule `as` reaches from `s` has the property `P`. -/
def EveryState (step : σ → α → Option σ) (P : σ → Prop) (s : σ) (as : List α) : Prop :=
  ∀ done rest mid, as = done ++ rest → Run step s done mid → P mid

section Schedules

variable {step : σ → α → Option σ} {C : List α → σ → α → Prop} {s s' : σ}

@[simp] theorem run_nil : Run step s [] s' ↔ s = s' := by
  simp [Run]

theorem run_append {as bs : List α} :
    Run step s (as ++ bs) s' ↔ ∃ mid, Run step s as mid ∧ Run step mid bs s' := by
  simp [Run, List.foldlM_append, Option.bind_eq_some_iff]

theorem run_cons {a : α} {as : List α} :
    Run step s (a :: as) s' ↔ ∃ mid, step s a = some mid ∧ Run step mid as s' := by
  simp [Run, List.foldlM_cons, Option.bind_eq_some_iff]

theorem run_concat {as : List α} {a : α} :
    Run step s (as ++ [a]) s' ↔ ∃ mid, Run step s as mid ∧ step mid a = some s' := by
  simp [run_append, run_cons]

/-- A schedule ends in one state. -/
theorem Run.unique {as : List α} {t : σ} (h : Run step s as s') (h' : Run step s as t) :
    s' = t :=
  Option.some.inj (h.symm.trans h')

/-- A schedule that can be taken, with the state it ends in. -/
theorem run_get {as : List α} (h : (as.foldlM step s).isSome) :
    Run step s as ((as.foldlM step s).get h) :=
  (Option.some_get h).symm

/-- The first steps of a schedule whose steps all meet a condition. -/
theorem EveryStep.of_append {as bs : List α} (h : EveryStep step C s (as ++ bs)) :
    EveryStep step C s as := by
  intro done a rest mid has hrun
  refine h done a (rest ++ bs) mid ?_ hrun
  rw [has, List.append_assoc, List.cons_append]

/-- The last step of a schedule whose steps all meet a condition. -/
theorem EveryStep.last {as : List α} {a : α} {mid : σ}
    (h : EveryStep step C s (as ++ [a])) (hrun : Run step s as mid) : C as mid a :=
  h as a [] mid rfl hrun

/-- A schedule whose steps all meet a condition, by its last step. -/
theorem everyStep_concat {as : List α} {a : α} :
    EveryStep step C s (as ++ [a]) ↔
      EveryStep step C s as ∧ ∀ mid, Run step s as mid → C as mid a := by
  constructor
  · exact fun h => ⟨h.of_append, fun _ hrun => h.last hrun⟩
  · rintro ⟨has, ha⟩ done b rest mid heq hmid
    obtain rfl | ⟨rest, c, rfl⟩ := List.eq_nil_or_concat rest
    · obtain ⟨rfl, hb⟩ := List.append_inj' heq rfl
      obtain rfl := List.singleton_inj.mp hb
      exact ha mid hmid
    · rw [List.concat_eq_append, ← List.cons_append, ← List.append_assoc] at heq
      exact has done b rest mid (List.append_inj' heq rfl).1 hmid

/-- In a schedule that can be taken, the state after each step. -/
theorem Run.next {as done rest : List α} {a : α} {mid : σ} (hrun : Run step s as s')
    (has : as = done ++ a :: rest) (hmid : Run step s done mid) :
    ∃ mid', step mid a = some mid' ∧ Run step s (done ++ [a]) mid' := by
  rw [has] at hrun
  obtain ⟨t, ht, hrest⟩ := run_append.mp hrun
  obtain rfl := ht.unique hmid
  obtain ⟨mid', hmid', -⟩ := run_cons.mp hrest
  exact ⟨mid', hmid', run_concat.mpr ⟨t, hmid, hmid'⟩⟩

/-- Conditions that are equivalent at the steps of a schedule that can be taken. -/
theorem everyStep_congr {C' : List α → σ → α → Prop} {as : List α} (hrun : Run step s as s')
    (h : ∀ done a mid mid', Run step s done mid → step mid a = some mid' →
      (C done mid a ↔ C' done mid a)) :
    EveryStep step C s as ↔ EveryStep step C' s as := by
  have hiff : ∀ done a rest mid, as = done ++ a :: rest → Run step s done mid →
      (C done mid a ↔ C' done mid a) := by
    intro done a rest mid has hmid
    obtain ⟨mid', hmid', -⟩ := hrun.next has hmid
    exact h done a mid mid' hmid hmid'
  constructor
  · intro hC done a rest mid has hmid
    exact (hiff done a rest mid has hmid).mp (hC done a rest mid has hmid)
  · intro hC' done a rest mid has hmid
    exact (hiff done a rest mid has hmid).mpr (hC' done a rest mid has hmid)

/-- A condition that does not speak of the steps taken before, step by step. -/
theorem everyStep_cons {D : σ → α → Prop} {a : α} {as : List α} :
    EveryStep step (fun _ s a => D s a) s (a :: as) ↔
      D s a ∧ ∀ mid, step s a = some mid → EveryStep step (fun _ s a => D s a) mid as := by
  constructor
  · intro h
    refine ⟨h [] a as s rfl (run_nil.mpr rfl), ?_⟩
    intro mid hmid done b rest t has ht
    refine h (a :: done) b rest t ?_ (run_cons.mpr ⟨mid, hmid, ht⟩)
    rw [has, List.cons_append]
  · rintro ⟨hfirst, hrest⟩ done b rest t has ht
    cases done with
    | nil =>
      obtain ⟨rfl, rfl⟩ := List.cons.inj has
      rwa [← run_nil.mp ht]
    | cons c done =>
      obtain ⟨rfl, rfl⟩ := List.cons.inj has
      obtain ⟨mid, hmid, ht⟩ := run_cons.mp ht
      exact hrest mid hmid done b rest t rfl ht

instance decidableEveryStep (step : σ → α → Option σ) (D : σ → α → Prop)
    [∀ s a, Decidable (D s a)] (s : σ) :
    (as : List α) → Decidable (EveryStep step (fun _ s a => D s a) s as)
  | [] => isTrue (by simp [EveryStep])
  | a :: as =>
    match h : step s a with
    | none => decidable_of_iff (D s a) (by simp [everyStep_cons, h])
    | some mid =>
      have := decidableEveryStep step D mid as
      decidable_of_iff (D s a ∧ EveryStep step (fun _ s a => D s a) mid as)
        (by simp [everyStep_cons, h])

/-- A condition on the steps alone. -/
theorem everyStep_of_forall_mem {P : α → Prop} {as : List α} (h : ∀ a ∈ as, P a) :
    EveryStep step (fun _ _ a => P a) s as := by
  intro done a rest mid has _
  exact h a (by simp [has])

/-- Invariants of the schedules whose steps all meet a condition. -/
theorem Run.invariant_of_everyStep {I : List α → σ → Prop} (hinit : I [] s)
    (hstep : ∀ done mid a mid', Run step s done mid → I done mid → C done mid a →
      step mid a = some mid' → I (done ++ [a]) mid')
    {as : List α} (hok : EveryStep step C s as) (hrun : Run step s as s') :
    I as s' := by
  induction as using List.reverseRecOn generalizing s' with
  | nil =>
    rw [run_nil] at hrun
    exact hrun ▸ hinit
  | append_singleton as a ih =>
    obtain ⟨mid, hmid, ha⟩ := run_concat.mp hrun
    exact hstep as mid a s' hmid (ih hok.of_append hmid) (hok.last hmid) ha

/-- A property of all states that are reached, read as a condition on the steps. -/
theorem EveryState.everyStep {P : σ → Prop} {as : List α} (h : EveryState step P s as)
    (hrun : Run step s as s')
    (hC : ∀ done mid a mid', Run step s done mid → P mid' → step mid a = some mid' →
      C done mid a) : EveryStep step C s as := by
  intro done a rest mid has hmid
  obtain ⟨mid', hstep, hmid'⟩ := hrun.next has hmid
  have hreached : P mid' := h (done ++ [a]) rest mid' (by rw [has]; simp) hmid'
  exact hC done mid a mid' hmid hreached hstep

/-- A property of the states, state by state. -/
theorem everyState_cons {P : σ → Prop} {a : α} {as : List α} :
    EveryState step P s (a :: as) ↔
      P s ∧ ∀ mid, step s a = some mid → EveryState step P mid as := by
  constructor
  · intro h
    refine ⟨h [] (a :: as) s rfl (run_nil.mpr rfl), ?_⟩
    intro mid hmid done rest t has ht
    refine h (a :: done) rest t ?_ (run_cons.mpr ⟨mid, hmid, ht⟩)
    rw [has, List.cons_append]
  · rintro ⟨hfirst, hrest⟩ done rest t has ht
    cases done with
    | nil => rwa [← run_nil.mp ht]
    | cons c done =>
      obtain ⟨rfl, rfl⟩ := List.cons.inj has
      obtain ⟨mid, hmid, ht⟩ := run_cons.mp ht
      exact hrest mid hmid done rest t rfl ht

theorem EveryState.first {P : σ → Prop} {as : List α} (h : EveryState step P s as) : P s :=
  h [] as s rfl (run_nil.mpr rfl)

/-- A property that a step keeps exactly when it meets a condition, where an invariant
holds that such steps keep too. -/
theorem everyState_iff_everyStep {I P : σ → Prop} {D : σ → α → Prop} {as : List α}
    (hrun : Run step s as s') (hI : I s) (hP : P s)
    (hstep : ∀ mid a mid', I mid → P mid → step mid a = some mid' →
      (P mid' ↔ D mid a) ∧ (P mid' → I mid')) :
    EveryState step P s as ↔ EveryStep step (fun _ s a => D s a) s as := by
  induction as generalizing s with
  | nil =>
    refine ⟨fun _ => by simp [EveryStep], fun _ done rest t has ht => ?_⟩
    obtain ⟨rfl, rfl⟩ := List.nil_eq_append_iff.mp has
    rwa [← run_nil.mp ht]
  | cons a as ih =>
    obtain ⟨mid, hmid, hrest⟩ := run_cons.mp hrun
    obtain ⟨hiff, hkeep⟩ := hstep s a mid hI hP hmid
    have huniq : ∀ t, step s a = some t → t = mid := by
      intro t ht
      exact Option.some.inj (ht.symm.trans hmid)
    rw [everyState_cons, everyStep_cons]
    constructor
    · rintro ⟨-, hall⟩
      have hmidP := (hall mid hmid).first
      refine ⟨hiff.mp hmidP, fun t ht => ?_⟩
      obtain rfl := huniq t ht
      exact (ih hrest (hkeep hmidP) hmidP).mp (hall t hmid)
    · rintro ⟨hD, hall⟩
      have hmidP := hiff.mpr hD
      refine ⟨hP, fun t ht => ?_⟩
      obtain rfl := huniq t ht
      exact (ih hrest (hkeep hmidP) hmidP).mpr (hall t hmid)

/-- Invariants of all schedules. -/
theorem Run.invariant {I : List α → σ → Prop} (hinit : I [] s)
    (hstep : ∀ done mid a mid', Run step s done mid → I done mid →
      step mid a = some mid' → I (done ++ [a]) mid')
    {as : List α} (hrun : Run step s as s') : I as s' :=
  Run.invariant_of_everyStep (C := fun _ _ _ => True) hinit
    (fun done mid a mid' hmid hinv _ => hstep done mid a mid' hmid hinv)
    (fun _ _ _ _ _ _ => trivial) hrun

/-- A property of states that no step of the schedule loses. -/
theorem Run.preserves_of_everyStep {P : σ → Prop} {as : List α} (hrun : Run step s as s')
    (hs : P s) (hok : EveryStep step C s as)
    (hstep : ∀ done mid a mid', P mid → C done mid a → step mid a = some mid' → P mid') :
    P s' :=
  Run.invariant_of_everyStep (I := fun _ s => P s) hs
    (fun done mid a mid' _ => hstep done mid a mid') hok hrun

/-- Conditions that are equivalent as long as a property holds that each of them keeps. -/
theorem everyStep_congr_of_preserves {C' D : List α → σ → α → Prop} {P : σ → Prop}
    {as : List α} (hs : P s)
    (hstep : ∀ done mid a mid', P mid → C done mid a → step mid a = some mid' → P mid')
    (hiff : ∀ done mid a, P mid → D done mid a → (C done mid a ↔ C' done mid a))
    (hD : EveryStep step D s as) : EveryStep step C s as ↔ EveryStep step C' s as := by
  constructor
  · intro hC done a rest mid has hmid
    have hP : P mid := hmid.preserves_of_everyStep hs (has ▸ hC).of_append hstep
    exact (hiff done mid a hP (hD done a rest mid has hmid)).mp (hC done a rest mid has hmid)
  · intro hC' done a rest mid has hmid
    have hboth : EveryStep step (fun done mid a => D done mid a ∧ C' done mid a) s as :=
      fun done a rest mid has hmid =>
        ⟨hD done a rest mid has hmid, hC' done a rest mid has hmid⟩
    have hP : P mid := by
      refine hmid.preserves_of_everyStep hs (has ▸ hboth).of_append ?_
      intro done mid a mid' hP hb
      exact hstep done mid a mid' hP ((hiff done mid a hP hb.1).mpr hb.2)
    exact (hiff done mid a hP (hD done a rest mid has hmid)).mpr
      (hC' done a rest mid has hmid)

end Schedules

end RtpBenchmarks.Foundation
