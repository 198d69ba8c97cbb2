import Mathlib.Data.Finset.Card
import Mathlib.Data.List.Perm.Basic
import Mathlib.Tactic.FinCases
import Mathlib.Tactic.IntervalCases
import RtpBenchmarks.Uvgrtp.Receiver

set_option autoImplicit false

/-!
# uvgRTP receiver: one result line per thread

`parse_recv` reads `nthreads` lines for each run of the receiver.  `OneLineEach` says
that a run has appended exactly these, one per thread.  A complete run has when
`StepOk` holds of each of its steps (`Orderly` is the invariant), and without null
frames and failed installations only then: the thread that completes a slot otherwise
writes a second line (`Repeats`), since there is one slot for two threads and so they
are never all ready (`Counted`).
-/

namespace RtpBenchmarks.Uvgrtp

open RtpBenchmarks.Foundation
open RtpBenchmarks.V3c (RtpFrame)

/-- Exactly `nthreads` lines, one per thread. -/
def OneLineEach (nthreads : Nat) (s : ReceiverState) : Prop :=
  s.writers.Perm (List.range nthreads)

/-! ## When a run writes one line per thread -/

/-- The condition on a step: the hook is installed; a null frame arrives only while it
leaves `nready` below `nthreads`; and a slot is completed only when there is a single
thread, which is still waiting. -/
def StepOk (nthreads : Nat) (s : ReceiverState) : Event → Prop
  | .install _ ok _ => ok
  | .hook i frame _ _ =>
    (frame = none → s.nready + 1 < nthreads) ∧
      (Completes s i frame → nthreads = 1 ∧ (s.threads i).past = false)
  | .iterate _ _ | .cleanup _ => True

/-- What holds while all steps are as `StepOk` says: a thread has left its wait loop
with its line written, and a waiting thread has written one only when it is the single
thread of the run and its slot is complete. -/
structure Orderly (nthreads : Nat) (s : ReceiverState) : Prop where
  nonneg : 0 ≤ s.nready
  nodup : s.writers.Nodup
  lt : ∀ i ∈ s.writers, i < nthreads
  wrote : ∀ i < nthreads, (s.threads i).past → i ∈ s.writers
  past : s.nready < nthreads → ∀ i ∈ s.writers, (s.threads i).past
  full : (nthreads : Int) ≤ s.nready →
    nthreads = 1 ∧ 0 ∈ s.writers ∧ expectedFrames ≤ (s.threadInfo 0).pkts

theorem orderly_initial {nthreads : Nat} (hn : 1 ≤ nthreads) : Orderly nthreads initial where
  nonneg := Int.le_refl 0
  nodup := List.nodup_nil
  lt := by simp [initial, ReceiverState.writers]
  wrote := by simp [initial, Phase.past]
  past := by simp [initial, ReceiverState.writers]
  full := by
    intro h
    simp only [initial] at h
    omega

theorem Orderly.setPhase {nthreads : Nat} {s : ReceiverState} (h : Orderly nthreads s)
    {i : Nat} {p : Phase} (hp : p.past = (s.threads i).past) :
    Orderly nthreads (s.setPhase i p) := by
  refine ⟨h.nonneg, h.nodup, h.lt, ?_, ?_, h.full⟩
  · intro j hj
    rw [setPhase_past hp]
    exact h.wrote j hj
  · intro hn j hj
    rw [setPhase_past hp]
    exact h.past hn j hj

/-- A call of the hook that does not complete its slot. -/
theorem Orderly.called {nthreads : Nat} {s : ReceiverState} (h : Orderly nthreads s)
    (hn : nthreads < 2 ^ 31) {i : Nat} {frame : Option RtpFrame} {now now' : Int}
    (hnull : frame = none → s.nready + 1 < nthreads) (hc : ¬ Completes s i frame) :
    Orderly nthreads (hook s i frame now now') := by
  have hw : (hook s i frame now now').writers = s.writers := by
    rw [hook_writers, if_neg hc, List.append_nil]
  have hr : s.nready ≤ (hook s i frame now now').nready ∧
      ((nthreads : Int) ≤ (hook s i frame now now').nready → (nthreads : Int) ≤ s.nready) := by
    rw [hook_nready]
    by_cases hf : frame = none
    · have hlt := hnull hf
      have h0 := h.nonneg
      rw [if_pos (Or.inl hf), atomicInc_of_lt h0 (by omega)]
      constructor <;> omega
    · rw [if_neg (by simp [hf, hc])]
      exact ⟨Int.le_refl _, id⟩
  refine ⟨Int.le_trans h.nonneg hr.1, hw ▸ h.nodup, hw ▸ h.lt, ?_, ?_, ?_⟩
  · rw [hw, hook_threads]
    exact h.wrote
  · rw [hw, hook_threads]
    exact fun hlt => h.past (Int.lt_of_le_of_lt hr.1 hlt)
  · intro hle
    obtain ⟨h1, h0, hp⟩ := h.full (hr.2 hle)
    refine ⟨h1, hw ▸ h0, ?_⟩
    rw [hook_pkts]
    exact Nat.le_add_right_of_le hp

/-- A call of the hook that completes the slot of the single thread while it waits. -/
theorem Orderly.completed {s : ReceiverState} (h : Orderly 1 s) {i : Nat} (hi : i < 1)
    {frame : Option RtpFrame} {now now' : Int} (hc : Completes s i frame)
    (hw : (s.threads i).past = false) : Orderly 1 (hook s i frame now now') := by
  obtain rfl : i = 0 := by omega
  have hpkts : (s.threadInfo 0).pkts + 1 = expectedFrames := hc.2
  have hlt : s.nready < (1 : Nat) := by
    by_contra hle
    have := (h.full (Int.not_lt.mp hle)).2.2
    omega
  have hnot : 0 ∉ s.writers := by
    intro hmem
    have := h.past hlt 0 hmem
    rw [hw] at this
    cases this
  have hnil : s.writers = [] := by
    refine List.eq_nil_iff_forall_not_mem.mpr fun j hj => hnot ?_
    obtain rfl : j = 0 := by have := h.lt j hj; omega
    exact hj
  have hwr : (hook s 0 frame now now').writers = [0] := by
    rw [hook_writers, if_pos hc, hnil, List.nil_append]
  have hready : (hook s 0 frame now now').nready = 1 := by
    have h0 := h.nonneg
    rw [hook_nready, if_pos (Or.inr hc), atomicInc_of_lt h0 (by omega)]
    omega
  refine ⟨by omega, by simp [hwr], by simp [hwr], ?_, ?_, ?_⟩
  · intro j hj _
    simp [hwr, Nat.lt_one_iff.mp hj]
  · intro hn
    omega
  · intro _
    refine ⟨rfl, by simp [hwr], ?_⟩
    rw [hook_pkts, if_pos ⟨rfl, hc.1⟩]
    omega

/-- A timeout of a thread that is still waiting. -/
theorem Orderly.timedOut {nthreads : Nat} {s : ReceiverState} (h : Orderly nthreads s)
    {i : Nat} (hi : i < nthreads) (hn : s.nready < nthreads)
    (hw : (s.threads i).past = false) {line : ResultLine} (hline : line.thread = i) :
    Orderly nthreads ({ s with results := s.results ++ [line] }.setPhase i .left) := by
  have hnot : i ∉ s.writers := by
    intro hmem
    have := h.past hn i hmem
    rw [hw] at this
    cases this
  refine ⟨h.nonneg, ?_, ?_, ?_, ?_, ?_⟩
  · rw [setPhase_writers, append_line_writers, hline, List.nodup_append]
    refine ⟨h.nodup, by simp, ?_⟩
    intro a ha b hb hab
    rw [List.mem_singleton.mp hb] at hab
    exact hnot (hab ▸ ha)
  · intro j hj
    rw [setPhase_writers, append_line_writers, hline, List.mem_append,
      List.mem_singleton] at hj
    rcases hj with hj | rfl
    · exact h.lt j hj
    · exact hi
  · intro j hj hpast
    rw [setPhase_threads] at hpast
    rw [setPhase_writers, append_line_writers, hline, List.mem_append, List.mem_singleton]
    split_ifs at hpast with hji
    · exact Or.inr hji
    · exact Or.inl (h.wrote j hj hpast)
  · intro _ j hj
    rw [setPhase_threads]
    rw [setPhase_writers, append_line_writers, hline, List.mem_append,
      List.mem_singleton] at hj
    split_ifs with hji
    · rfl
    · exact h.past hn j (hj.resolve_right hji)
  · intro hle
    exact absurd hn (Int.not_lt.mpr hle)

/-- The wait loop ends because every thread is ready. -/
theorem Orderly.ready {nthreads : Nat} {s : ReceiverState} (h : Orderly nthreads s)
    {i : Nat} (hn : (nthreads : Int) ≤ s.nready) : Orderly nthreads (s.setPhase i .left) := by
  obtain ⟨h1, h0, hp⟩ := h.full hn
  refine ⟨h.nonneg, h.nodup, h.lt, ?_, ?_, h.full⟩
  · intro j hj _
    obtain rfl : j = 0 := by omega
    exact h0
  · intro hlt
    exact absurd hlt (Int.not_lt.mpr hn)

/-- A step as `StepOk` says keeps the state orderly. -/
theorem Orderly.step {nthreads : Nat} {s s' : ReceiverState} {e : Event}
    (h : Orderly nthreads s) (hn : nthreads < 2 ^ 31) (hok : StepOk nthreads s e)
    (hs : Steps nthreads s e s') : Orderly nthreads s' := by
  cases hs with
  | installed hi hp => exact h.setPhase (by simp [hp])
  | failed hi hp => cases hok
  | @called i frame now now' hi hp =>
    by_cases hc : Completes s i frame
    · obtain ⟨rfl, hw⟩ := hok.2 hc
      exact h.completed hi hc hw
    · exact h.called hn hok.1 hc
  | progressed hi hp => exact h.setPhase (by simp [hp])
  | timedOut hi hp hlt => exact h.timedOut hi hlt (by simp [hp]) rfl
  | idled => exact h
  | ready hi hp hle => exact h.ready hle
  | cleaned hi hp => exact h.setPhase (by simp [hp])

/-- An orderly complete run has written one line per thread. -/
theorem Orderly.oneLineEach {nthreads : Nat} {s : ReceiverState} (h : Orderly nthreads s)
    (hdone : Complete nthreads s) : OneLineEach nthreads s := by
  refine (List.perm_ext_iff_of_nodup h.nodup List.nodup_range).mpr fun i => ?_
  rw [List.mem_range]
  constructor
  · exact h.lt i
  · intro hi
    refine h.wrote i hi ?_
    rw [hdone i hi]
    rfl

/-! ## Runs without null frames and failed installations -/

/-- The step is not a null frame or a failed installation. -/
def Event.Plain : Event → Prop
  | .install _ ok _ => ok
  | .hook _ frame _ _ => frame ≠ none
  | .iterate _ _ | .cleanup _ => True

/-- The slots of `nthreads` threads that are complete. -/
def fullSlots (nthreads : Nat) (s : ReceiverState) : Finset Nat :=
  (Finset.range ((nthreads + 1) / 2)).filter
    fun tid => expectedFrames ≤ (s.threadInfo tid).pkts

theorem card_fullSlots_le (nthreads : Nat) (s : ReceiverState) :
    (fullSlots nthreads s).card ≤ (nthreads + 1) / 2 :=
  (Finset.card_filter_le _ _).trans_eq (Finset.card_range _)

/-- A call of the hook completes one slot or none. -/
theorem card_fullSlots_hook {nthreads : Nat} (s : ReceiverState) {i : Nat}
    (hi : i < nthreads) (frame : Option RtpFrame) (now now' : Int) :
    (fullSlots nthreads (hook s i frame now now')).card =
      (fullSlots nthreads s).card + if Completes s i frame then 1 else 0 := by
  have htid : tidOf i < (nthreads + 1) / 2 := by
    unfold tidOf
    omega
  split_ifs with hc
  · have hpkts := hc.2
    have hnot : tidOf i ∉ fullSlots nthreads s := by
      simp only [fullSlots, Finset.mem_filter]
      omega
    rw [← Finset.card_insert_of_notMem hnot]
    congr 1
    ext tid
    simp only [fullSlots, Finset.mem_filter, Finset.mem_insert, Finset.mem_range, hook_pkts,
      hc.1, and_true]
    by_cases ht : tid = tidOf i
    · subst ht
      simp only [if_true, true_or, iff_true]
      omega
    · simp [ht]
  · rw [Nat.add_zero]
    congr 1
    ext tid
    simp only [fullSlots, Finset.mem_filter, hook_pkts, and_congr_right_iff]
    intro _
    split_ifs with ht
    · have hne : (s.threadInfo tid).pkts + 1 ≠ expectedFrames := by
        intro heq
        exact hc ⟨ht.2, ht.1 ▸ heq⟩
      omega
    · rfl

/-- What holds in every run of plain steps: `nready` counts the complete slots, and
while it has not reached `nthreads` a thread has left its wait loop with a line. -/
structure Counted (nthreads : Nat) (s : ReceiverState) : Prop where
  nready : s.nready = (fullSlots nthreads s).card
  wrote : s.nready < nthreads → ∀ i, (s.threads i).past → i ∈ s.writers

theorem counted_initial (nthreads : Nat) : Counted nthreads initial where
  nready := by
    have h : fullSlots nthreads initial = ∅ := by
      simp [fullSlots, initial, expectedFrames]
    rw [h]
    rfl
  wrote := by simp [initial, Phase.past]

/-- Two or more threads are never all ready: there is one slot for two threads. -/
theorem Counted.nready_lt {nthreads : Nat} {s : ReceiverState} (h : Counted nthreads s)
    (hn : 2 ≤ nthreads) : s.nready < nthreads := by
  have := card_fullSlots_le nthreads s
  rw [h.nready]
  omega

theorem Counted.setPhase {nthreads : Nat} {s : ReceiverState} (h : Counted nthreads s)
    {i : Nat} {p : Phase} (hp : p.past = (s.threads i).past) :
    Counted nthreads (s.setPhase i p) := by
  refine ⟨h.nready, fun hn j hj => h.wrote hn j ?_⟩
  rw [setPhase_past hp] at hj
  exact hj

theorem Counted.called {nthreads : Nat} {s : ReceiverState} (h : Counted nthreads s)
    (hn : nthreads < 2 ^ 31) {i : Nat} (hi : i < nthreads) {frame : Option RtpFrame}
    (hf : frame ≠ none) (now now' : Int) : Counted nthreads (hook s i frame now now') := by
  have hle := card_fullSlots_le nthreads s
  have hready : (hook s i frame now now').nready =
      s.nready + if Completes s i frame then 1 else 0 := by
    rw [hook_nready]
    by_cases hc : Completes s i frame
    · rw [if_pos (Or.inr hc), if_pos hc]
      have hnr := h.nready
      exact atomicInc_of_lt (by omega) (by omega)
    · rw [if_neg (by simp [hf, hc]), if_neg hc, Int.add_zero]
  constructor
  · rw [hready, card_fullSlots_hook s hi, h.nready]
    split_ifs <;> simp
  · intro hlt j hj
    have hlt' : s.nready < nthreads := by
      refine Int.lt_of_le_of_lt ?_ hlt
      rw [hready]
      split_ifs <;> omega
    rw [hook_threads] at hj
    rw [hook_writers]
    exact List.mem_append_left _ (h.wrote hlt' j hj)

theorem Counted.step {nthreads : Nat} {s s' : ReceiverState} {e : Event}
    (h : Counted nthreads s) (hn : nthreads < 2 ^ 31) (he : e.Plain)
    (hs : Steps nthreads s e s') : Counted nthreads s' := by
  cases hs with
  | installed hi hp => exact h.setPhase (by simp [hp])
  | failed hi hp => cases he
  | called hi hp => exact h.called hn hi he _ _
  | progressed hi hp => exact h.setPhase (by simp [hp])
  | @timedOut i now prev upd hi hp hlt =>
    refine ⟨h.nready, fun hn j hj => ?_⟩
    rw [setPhase_threads] at hj
    rw [setPhase_writers, append_line_writers, List.mem_append]
    split_ifs at hj with hji
    · exact Or.inr (by simp [hji, ThreadInfo.line])
    · exact Or.inl (h.wrote hn j hj)
  | idled => exact h
  | ready hi hp hle => exact ⟨h.nready, fun hlt => absurd hlt (Int.not_lt.mpr hle)⟩
  | cleaned hi hp => exact h.setPhase (by simp [hp])

/-- Thread `i` writes a line too many: it has one line, two if it has left its wait
loop, and if it is the single thread it has left it. -/
structure Repeats (nthreads i : Nat) (s : ReceiverState) : Prop where
  lines : (1 + if (s.threads i).past then 1 else 0) ≤ s.writers.count i
  single : nthreads ≤ 1 → (s.threads i).past

/-- Completing a slot makes a thread repeat itself, but for the single thread while it
waits. -/
theorem repeats_of_completes {nthreads : Nat} {s : ReceiverState} (h : Counted nthreads s)
    {i : Nat} (hi : i < nthreads) {frame : Option RtpFrame} (now now' : Int)
    (hc : Completes s i frame) (hbad : nthreads = 1 → (s.threads i).past) :
    Repeats nthreads i (hook s i frame now now') := by
  have hready : s.nready < nthreads := by
    by_cases h2 : 2 ≤ nthreads
    · exact h.nready_lt h2
    · have hpkts := hc.2
      have hcard := card_fullSlots_hook s hi frame 0 0
      have hle := card_fullSlots_le nthreads (hook s i frame 0 0)
      rw [if_pos hc] at hcard
      rw [h.nready]
      omega
  refine ⟨?_, fun h1 => ?_⟩
  · rw [hook_writers, if_pos hc, hook_threads, List.count_append, List.count_singleton_self,
      Nat.add_comm]
    refine Nat.add_le_add_right ?_ 1
    split_ifs with hpast
    · exact List.one_le_count_iff.mpr (h.wrote hready i hpast)
    · exact Nat.zero_le _
  · rw [hook_threads]
    exact hbad (by omega)

theorem Repeats.setPhase {nthreads i : Nat} {s : ReceiverState} (h : Repeats nthreads i s)
    {j : Nat} {p : Phase} (hp : p.past = (s.threads j).past) :
    Repeats nthreads i (s.setPhase j p) :=
  ⟨setPhase_past hp i ▸ h.lines, setPhase_past hp i ▸ h.single⟩

/-- Moving another thread. -/
theorem Repeats.setPhase_of_ne {nthreads i : Nat} {s : ReceiverState}
    (h : Repeats nthreads i s) {j : Nat} (hij : i ≠ j) (p : Phase) :
    Repeats nthreads i (s.setPhase j p) := by
  have hthread : (s.setPhase j p).threads i = s.threads i := by
    rw [setPhase_threads, if_neg hij]
  exact ⟨hthread ▸ h.lines, hthread ▸ h.single⟩

/-- More lines. -/
theorem Repeats.append_line {nthreads i : Nat} {s : ReceiverState} (h : Repeats nthreads i s)
    (line : ResultLine) : Repeats nthreads i { s with results := s.results ++ [line] } := by
  refine ⟨?_, h.single⟩
  rw [append_line_writers, List.count_append]
  exact Nat.le_add_right_of_le h.lines

theorem Repeats.step {nthreads i : Nat} {s s' : ReceiverState} {e : Event}
    (h : Repeats nthreads i s) (hc : Counted nthreads s) (he : e.Plain)
    (hs : Steps nthreads s e s') : Repeats nthreads i s' := by
  cases hs with
  | installed hj hp => exact h.setPhase (by simp [hp])
  | failed hj hp => cases he
  | called hj hp =>
    refine ⟨?_, ?_⟩
    · rw [hook_writers, hook_threads, List.count_append]
      exact Nat.le_add_right_of_le h.lines
    · rw [hook_threads]
      exact h.single
  | progressed hj hp => exact h.setPhase (by simp [hp])
  | @timedOut j now prev upd hj hp hlt =>
    by_cases hij : i = j
    · subst hij
      have hlines := h.lines
      refine ⟨?_, fun _ => ?_⟩
      · rw [setPhase_threads, if_pos rfl, setPhase_writers, append_line_writers,
          List.count_append]
        simp only [hp, Phase.past, Bool.false_eq_true, if_false] at hlines
        simpa [Phase.past, ThreadInfo.line] using hlines
      · rw [setPhase_threads, if_pos rfl]
        rfl
    · exact (h.append_line _).setPhase_of_ne hij .left
  | idled => exact h
  | @ready j now prev upd hj hp hle =>
    by_cases hij : i = j
    · -- `i` waits, so there are two threads or more, and they are not all ready
      subst hij
      have h2 : 2 ≤ nthreads := by
        by_contra hlt
        have := h.single (by omega)
        rw [hp] at this
        cases this
      exact absurd (hc.nready_lt h2) (Int.not_lt.mpr hle)
    · exact h.setPhase_of_ne hij .left
  | cleaned hj hp => exact h.setPhase (by simp [hp])

/-- A complete run in which a thread repeats itself. -/
theorem Repeats.not_oneLineEach {nthreads i : Nat} {s : ReceiverState}
    (h : Repeats nthreads i s) (hi : i < nthreads) (hdone : Complete nthreads s) :
    ¬ OneLineEach nthreads s := by
  intro hone
  have hlines := h.lines
  rw [hdone i hi, hone.count_eq, List.count_eq_one_of_mem List.nodup_range
    (List.mem_range.mpr hi)] at hlines
  simp [Phase.past] at hlines

theorem counted_of_run {nthreads : Nat} (hn : nthreads < 2 ^ 31) {evs : List Event}
    {s : ReceiverState} (hrun : Run (step nthreads) initial evs s)
    (hplain : ∀ e ∈ evs, e.Plain) : Counted nthreads s := by
  refine hrun.preserves_of_everyStep (counted_initial nthreads)
    (everyStep_of_forall_mem hplain) ?_
  intro _ mid e mid' h hplain hs
  exact h.step hn hplain (steps_of_step hs)

theorem Repeats.run {nthreads i : Nat} {s s' : ReceiverState} (h : Repeats nthreads i s)
    (hc : Counted nthreads s) (hn : nthreads < 2 ^ 31) {evs : List Event}
    (hrun : Run (Uvgrtp.step nthreads) s evs s') (hplain : ∀ e ∈ evs, e.Plain) :
    Repeats nthreads i s' := by
  have hboth : Counted nthreads s' ∧ Repeats nthreads i s' := by
    refine hrun.preserves_of_everyStep (P := fun s => Counted nthreads s ∧ Repeats nthreads i s)
      ⟨hc, h⟩ (everyStep_of_forall_mem hplain) ?_
    intro _ mid e mid' h hplain hs
    have hstep := steps_of_step hs
    exact ⟨h.1.step hn hplain hstep, h.2.step h.1 hplain hstep⟩
  exact hboth.2

/-- In a complete run of plain steps with one line per thread, no slot is completed but
by the single thread while it waits. -/
theorem stepOk_of_oneLineEach {nthreads : Nat} (hn : nthreads < 2 ^ 31)
    {evs : List Event} {s : ReceiverState} (hrun : Run (step nthreads) initial evs s)
    (hdone : Complete nthreads s) (hplain : ∀ e ∈ evs, e.Plain)
    (hone : OneLineEach nthreads s) :
    EveryStep (step nthreads) (fun _ => StepOk nthreads) initial evs := by
  intro done e rest mid hevs hmid
  subst hevs
  have he : e.Plain := hplain e (by simp)
  cases e with
  | install i ok now => exact he
  | iterate i now => trivial
  | cleanup i => trivial
  | hook i frame now now' =>
    refine ⟨fun hf => absurd hf he, fun hc => ?_⟩
    obtain ⟨mid', hmid', hrest⟩ := run_append.mp hrun
    obtain rfl := hmid'.unique hmid
    obtain ⟨next, hnext, hrest⟩ := run_cons.mp hrest
    have hcount : Counted nthreads mid' :=
      counted_of_run hn hmid' fun a ha => hplain a (by simp [ha])
    have hstep := steps_of_step hnext
    have hcount' := hcount.step hn he hstep
    cases hstep with
    | called hi hp =>
      by_contra hbad
      have hrep : Repeats nthreads i (hook mid' i frame now now') := by
        refine repeats_of_completes hcount hi now now' hc fun h1 => ?_
        by_contra hpast
        exact hbad ⟨h1, Bool.eq_false_iff.mpr hpast⟩
      have hend := hrep.run hcount' hn hrest fun a ha => hplain a (by simp [ha])
      exact hend.not_oneLineEach hi hdone hone

/-- A complete run whose steps are all as `StepOk` says appends exactly `nthreads` lines,
one per thread; and without null frames and failed installations only such a run does. -/
theorem receiver_oneLineEach {nthreads : Nat} (hn : 1 ≤ nthreads) (hint : nthreads < 2 ^ 31)
    {evs : List Event} {s : ReceiverState} (hrun : Run (step nthreads) initial evs s)
    (hdone : Complete nthreads s) :
    (EveryStep (step nthreads) (fun _ => StepOk nthreads) initial evs →
      OneLineEach nthreads s) ∧
    ((∀ e ∈ evs, e.Plain) → OneLineEach nthreads s →
      EveryStep (step nthreads) (fun _ => StepOk nthreads) initial evs) := by
  refine ⟨fun hok => ?_, stepOk_of_oneLineEach hint hrun hdone⟩
  have horderly : Orderly nthreads s := by
    refine hrun.preserves_of_everyStep (orderly_initial hn) hok ?_
    intro _ mid e mid' h hstep hs
    exact h.step hint hstep (steps_of_step hs)
  exact horderly.oneLineEach hdone

/-- Two threads whose streams carry nothing. -/
theorem receiver_oneLineEach_two :
    ∃ s, Run (step 2) initial
        [.install 0 true 0, .install 1 true 0, .iterate 0 200000000, .iterate 1 200000000,
          .cleanup 0, .cleanup 1] s ∧
      OneLineEach 2 s := by
  refine ⟨_, run_get rfl, (receiver_oneLineEach (by decide) (by decide) (run_get rfl)
    (by decide)).1 ?_⟩
  intro done e rest mid hevs _
  have he : e ∈ done ++ e :: rest := by simp
  rw [← hevs] at he
  fin_cases he <;> trivial

/-- Thread 0 receives all its frames and thread 1 none; both time out. -/
def firstStreamOnly : List Event :=
  [.install 0 true 0, .install 1 true 0]
    ++ List.replicate expectedFrames (.hook 0 (some ⟨[0]⟩) 0 0)
    ++ [.iterate 0 0, .iterate 1 0, .iterate 0 200000000, .iterate 1 200000000,
      .cleanup 0, .cleanup 1]

set_option maxRecDepth 4000 in
/-- Three lines for two threads, two of them for thread 0; and no line for the single
thread of a run in which the hook reports that no frame has come. -/
theorem receiver_not_oneLineEach :
    (∃ s, Run (step 2) initial firstStreamOnly s ∧ Complete 2 s ∧ s.writers = [0, 0, 1] ∧
      ¬ OneLineEach 2 s) ∧
    (∃ s, Run (step 1) initial
        [.install 0 true 0, .hook 0 none 0 0, .iterate 0 0, .cleanup 0] s ∧
      Complete 1 s ∧ s.writers = [] ∧ ¬ OneLineEach 1 s) := by
  have hrun : (firstStreamOnly.foldlM (step 2) initial).map
      (fun s => (s.writers, s.threads 0, s.threads 1)) =
        some ([0, 0, 1], .closed, .closed) := by
    decide +kernel
  obtain ⟨s, hs, heq⟩ := Option.map_eq_some_iff.mp hrun
  simp only [Prod.mk.injEq] at heq
  obtain ⟨hw, h0, h1⟩ := heq
  constructor
  · refine ⟨s, hs, ?_, hw, ?_⟩
    · intro i hi
      interval_cases i
      · exact h0
      · exact h1
    · intro hone
      have := hone.length_eq
      rw [hw] at this
      cases this
  · refine ⟨_, rfl, by decide, rfl, ?_⟩
    intro hone
    cases hone.length_eq

end RtpBenchmarks.Uvgrtp
