import RtpBenchmarks.Foundation.Runs

set_option autoImplicit false

/-!
# Foundation: threads with one log

Threads that share nothing but a log take their steps in any order; a step of one of them
changes its own state and appends what it writes.  So what each step keeps of a thread is
kept of all of them, and where the state of a thread tells what it has written, the log is
what all of them have written, in some order.
-/

namespace RtpBenchmarks.Foundation

open scoped List

/-- The states of the threads, and their log. -/
structure Threads (σ ω : Type) where
  threads : List σ
  log : List ω := []
  deriving DecidableEq

namespace Threads

variable {σ α ω : Type} {step : σ → α → Option (σ × List ω)} {s s' : Threads σ ω}

/-- A step of the thread with this number. -/
def next (step : σ → α → Option (σ × List ω)) (s : Threads σ ω) (e : Nat × α) :
    Option (Threads σ ω) :=
  match s.threads[e.1]? with
  | none => none
  | some t => (step t e.2).map fun (t', out) =>
    { threads := s.threads.set e.1 t', log := s.log ++ out }

/-- What a step of a thread does to all of them. -/
theorem next_eq_some {e : Nat × α} (h : next step s e = some s') :
    ∃ before t behind t' out, s.threads = before ++ t :: behind ∧ before.length = e.1 ∧
      step t e.2 = some (t', out) ∧
      s' = { threads := before ++ t' :: behind, log := s.log ++ out } := by
  unfold next at h
  split at h
  · cases h
  · next t ht =>
    obtain ⟨⟨t', out⟩, hstep, rfl⟩ := Option.map_eq_some_iff.mp h
    obtain ⟨hlt, rfl⟩ := List.getElem?_eq_some_iff.mp ht
    refine ⟨s.threads.take e.1, s.threads[e.1], s.threads.drop (e.1 + 1), t', out, ?_, ?_,
      hstep, ?_⟩
    · rw [List.getElem_cons_drop, List.take_append_drop]
    · exact List.length_take_of_le (Nat.le_of_lt hlt)
    · dsimp only
      rw [List.set_eq_take_append_cons_drop, if_pos hlt]

/-- A condition on the steps of a thread, for steps of all of them. -/
def Each (D : σ → α → Prop) (s : Threads σ ω) (e : Nat × α) : Prop :=
  ∀ t ∈ s.threads[e.1]?, D t e.2

instance (D : σ → α → Prop) [∀ t a, Decidable (D t a)] (s : Threads σ ω) (e : Nat × α) :
    Decidable (Each D s e) :=
  inferInstanceAs (Decidable (∀ t ∈ s.threads[e.1]?, D t e.2))

theorem Each.apply {D : σ → α → Prop} {i : Nat} {a : α} {before behind : List σ} {t : σ}
    (h : Each D s (i, a))
    (hs : s.threads = before ++ t :: behind) (hi : before.length = i) : D t a := by
  refine h t ?_
  rw [hs, ← hi]
  simp

/-- There are as many threads at the end as at the start. -/
theorem length_run {evs : List (Nat × α)} (hrun : Run (next step) s evs s') :
    s'.threads.length = s.threads.length := by
  refine hrun.invariant (I := fun _ s' => s'.threads.length = s.threads.length) rfl ?_
  rintro done mid e mid' - hmid hs
  obtain ⟨before, t, behind, t', out, hthreads, -, -, rfl⟩ := next_eq_some hs
  rw [← hmid, hthreads, List.length_append, List.length_append]
  rfl

/-- What each step of a thread keeps of it holds of all threads in all runs. -/
theorem forall_run {D : σ → α → Prop} {P : σ → Prop} {evs : List (Nat × α)}
    (hrun : Run (next step) s evs s') (hs : ∀ t ∈ s.threads, P t)
    (hD : EveryStep (next step) (fun _ s e => Each D s e) s evs)
    (hstep : ∀ {t t' a out}, P t → D t a → step t a = some (t', out) → P t') :
    ∀ t ∈ s'.threads, P t := by
  refine hrun.preserves_of_everyStep (P := fun s' => ∀ t ∈ s'.threads, P t) hs hD ?_
  rintro done mid ⟨i, a⟩ mid' hmid heach hnext
  obtain ⟨before, t, behind, t', out, hthreads, hi, ht, rfl⟩ := next_eq_some hnext
  have hDt := heach.apply hthreads hi
  rw [hthreads, List.forall_mem_append, List.forall_mem_cons] at hmid
  rw [List.forall_mem_append, List.forall_mem_cons]
  exact ⟨hmid.1, hstep hmid.2.1 hDt ht, hmid.2.2⟩

/-- The log is what the threads have written, in some order. -/
theorem log_perm {written : σ → List ω} {evs : List (Nat × α)}
    (hstep : ∀ {t t' a out}, step t a = some (t', out) → written t' = written t ++ out)
    (hrun : Run (next step) s evs s') (hs : s.log ~ s.threads.flatMap written) :
    s'.log ~ s'.threads.flatMap written := by
  refine hrun.invariant (I := fun _ s' => s'.log ~ s'.threads.flatMap written) hs ?_
  rintro done mid e mid' - hmid hnext
  obtain ⟨before, t, behind, t', out, hthreads, -, ht, rfl⟩ := next_eq_some hnext
  rw [hthreads, List.flatMap_append, List.flatMap_cons] at hmid
  rw [List.flatMap_append, List.flatMap_cons, hstep ht]
  calc mid.log ++ out
      ~ (before.flatMap written ++ (written t ++ behind.flatMap written)) ++ out :=
        hmid.append_right out
    _ = before.flatMap written ++ (written t ++ (behind.flatMap written ++ out)) := by
        simp only [List.append_assoc]
    _ ~ before.flatMap written ++ (written t ++ (out ++ behind.flatMap written)) :=
        (List.perm_append_comm.append_left _).append_left _
    _ = before.flatMap written ++ ((written t ++ out) ++ behind.flatMap written) := by
        simp only [List.append_assoc]

end Threads

end RtpBenchmarks.Foundation
