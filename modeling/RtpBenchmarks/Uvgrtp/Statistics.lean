import RtpBenchmarks.Uvgrtp.Receiver

set_option autoImplicit false

/-!
# uvgRTP receiver: whose frames a result line counts

The hooks of all threads with the same `thread_num / 2` update one slot of
`thread_info`.  In every run a slot holds the totals of the frames that have arrived on
the streams of these threads (`slot_totals`), and a line holds the totals of its
thread's slot; so it holds those of its thread's own stream exactly when nothing has
arrived on the others.
-/

namespace RtpBenchmarks.Uvgrtp

open RtpBenchmarks.Foundation
open RtpBenchmarks.V3c (RtpFrame)

/-- The frame that arrives with a step, and the thread whose stream it arrives on. -/
def Event.arrival : Event → Option (Nat × RtpFrame)
  | .hook i frame _ _ => frame.map (i, ·)
  | .install _ _ _ | .iterate _ _ | .cleanup _ => none

/-- The frames that have arrived, in order. -/
def arrivals (evs : List Event) : List (Nat × RtpFrame) :=
  evs.filterMap Event.arrival

/-- The payload size of some arrivals. -/
def totalBytes (frames : List (Nat × RtpFrame)) : Nat :=
  (frames.map (·.2.payload.length)).sum

/-- The arrivals on the streams of the threads that use slot `tid`. -/
def slotArrivals (tid : Nat) (evs : List Event) : List (Nat × RtpFrame) :=
  (arrivals evs).filter (tidOf ·.1 = tid)

/-- The arrivals on a thread's own stream. -/
def ownArrivals (threadNum : Nat) (evs : List Event) : List (Nat × RtpFrame) :=
  (arrivals evs).filter (·.1 = threadNum)

theorem arrivals_concat (evs : List Event) (e : Event) :
    arrivals (evs ++ [e]) = arrivals evs ++ e.arrival.toList := by
  rw [arrivals, List.filterMap_append]
  cases h : e.arrival <;> simp [h, arrivals]

theorem slotArrivals_concat (tid : Nat) (evs : List Event) (e : Event) :
    slotArrivals tid (evs ++ [e]) =
      slotArrivals tid evs ++ e.arrival.toList.filter (tidOf ·.1 = tid) := by
  rw [slotArrivals, arrivals_concat, List.filter_append]
  rfl

theorem totalBytes_append (xs ys : List (Nat × RtpFrame)) :
    totalBytes (xs ++ ys) = totalBytes xs + totalBytes ys := by
  simp [totalBytes]

/-- A call of the hook adds the size of its frame to its slot. -/
theorem hook_bytes (s : ReceiverState) (i : Nat) (frame : Option RtpFrame) (now now' : Int)
    (tid : Nat) :
    ((hook s i frame now now').threadInfo tid).bytes =
      (s.threadInfo tid).bytes +
        if tid = tidOf i then (frame.map (·.payload.length)).getD 0 else 0 := by
  rw [hook_threadInfo]
  by_cases ht : tid = tidOf i
  · subst ht
    cases frame <;> simp [ThreadInfo.count]
  · simp [ht]

/-- The slots hold the totals of the arrivals `evs`. -/
def SlotTotals (evs : List Event) (s : ReceiverState) : Prop :=
  ∀ tid, (s.threadInfo tid).pkts = (slotArrivals tid evs).length ∧
    (s.threadInfo tid).bytes = totalBytes (slotArrivals tid evs)

/-- A step without an arrival that leaves the slots as they are. -/
theorem SlotTotals.frame {evs : List Event} {s s' : ReceiverState} {e : Event}
    (h : SlotTotals evs s) (he : e.arrival = none) (hs : s'.threadInfo = s.threadInfo) :
    SlotTotals (evs ++ [e]) s' := by
  intro tid
  rw [hs, slotArrivals_concat, he, Option.toList_none, List.filter_nil, List.append_nil]
  exact h tid

theorem SlotTotals.called {evs : List Event} {s : ReceiverState} (h : SlotTotals evs s)
    (i : Nat) (frame : Option RtpFrame) (now now' : Int) :
    SlotTotals (evs ++ [.hook i frame now now']) (hook s i frame now now') := by
  intro tid
  rw [hook_pkts, hook_bytes, slotArrivals_concat, List.length_append, totalBytes_append,
    (h tid).1, (h tid).2]
  cases frame with
  | none => simp [Event.arrival, totalBytes]
  | some frame =>
    by_cases ht : tid = tidOf i
    · subst ht
      simp [Event.arrival, totalBytes]
    · simp [Event.arrival, totalBytes, ht, Ne.symm ht]

theorem SlotTotals.step {nthreads : Nat} {evs : List Event} {s s' : ReceiverState}
    {e : Event} (h : SlotTotals evs s) (hs : Steps nthreads s e s') :
    SlotTotals (evs ++ [e]) s' := by
  cases hs with
  | installed | failed | progressed | timedOut | idled | ready | cleaned =>
    exact h.frame rfl rfl
  | called hi hp => exact h.called _ _ _ _

/-- The slots after a run. -/
theorem slot_totals {nthreads : Nat} {evs : List Event} {s : ReceiverState}
    (hrun : Run (step nthreads) initial evs s) : SlotTotals evs s := by
  refine hrun.invariant ?_ ?_
  · intro tid
    exact ⟨rfl, rfl⟩
  · intro done mid e mid' _ h hs
    exact h.step (steps_of_step hs)

/-- A new line is the one of its thread's slot as the step leaves it. -/
theorem line_of_step {nthreads : Nat} {s s' : ReceiverState} {e : Event} {line : ResultLine}
    (hs : Steps nthreads s e s') (hline : s'.results = s.results ++ [line]) :
    line = (s'.threadInfo (tidOf line.thread)).line line.thread := by
  cases hs with
  | installed | failed | progressed | idled | ready | cleaned =>
    exact absurd hline.symm (by simp [ReceiverState.setPhase])
  | @called i frame now now' hi hp =>
    rw [hook_results, List.append_cancel_left_eq] at hline
    split_ifs at hline with hc
    rw [List.singleton_inj] at hline
    rw [← hline]
    rfl
  | @timedOut i now prev upd hi hp hn =>
    have hlast : [(s.threadInfo (tidOf i)).line i] = [line] :=
      List.append_cancel_left hline
    rw [List.singleton_inj] at hlast
    rw [← hlast]
    rfl

/-- A line holds the totals of its thread's own stream. -/
def OwnTotals (evs : List Event) (line : ResultLine) : Prop :=
  line.packets = (ownArrivals line.thread evs).length ∧
    line.bytes = totalBytes (ownArrivals line.thread evs)

instance (evs : List Event) (line : ResultLine) : Decidable (OwnTotals evs line) :=
  inferInstanceAs (Decidable (_ ∧ _))

theorem ownArrivals_eq_filter (threadNum : Nat) (evs : List Event) :
    ownArrivals threadNum evs =
      (slotArrivals (tidOf threadNum) evs).filter (·.1 = threadNum) := by
  rw [ownArrivals, slotArrivals, List.filter_filter]
  refine List.filter_congr fun a _ => ?_
  by_cases ha : a.1 = threadNum <;> simp [ha]

/-- A line of a run holds the totals of its thread's own stream if and only if nothing
has arrived on the stream of another thread with the same slot. -/
theorem ownTotals_iff {nthreads : Nat} {evs : List Event} {e : Event}
    {s s' : ReceiverState} {line : ResultLine} (hrun : Run (step nthreads) initial evs s)
    (hs : step nthreads s e = some s') (hline : s'.results = s.results ++ [line]) :
    OwnTotals (evs ++ [e]) line ↔
      ∀ a ∈ arrivals (evs ++ [e]), tidOf a.1 = tidOf line.thread → a.1 = line.thread := by
  have htotals := slot_totals (run_concat.mpr ⟨s, hrun, hs⟩) (tidOf line.thread)
  have hof := line_of_step (steps_of_step hs) hline
  have hpackets : line.packets =
      (slotArrivals (tidOf line.thread) (evs ++ [e])).length := by
    rw [← htotals.1]
    exact congrArg ResultLine.packets hof
  have hbytes : line.bytes = totalBytes (slotArrivals (tidOf line.thread) (evs ++ [e])) := by
    rw [← htotals.2]
    exact congrArg ResultLine.bytes hof
  have hmem : (∀ a ∈ arrivals (evs ++ [e]), tidOf a.1 = tidOf line.thread →
        a.1 = line.thread) ↔
      ∀ a ∈ slotArrivals (tidOf line.thread) (evs ++ [e]), decide (a.1 = line.thread) := by
    simp [slotArrivals]
  rw [hmem, OwnTotals, hpackets, hbytes, ownArrivals_eq_filter]
  constructor
  · rintro ⟨hlength, -⟩
    exact List.length_filter_eq_length_iff.mp hlength.symm
  · intro hall
    rw [List.filter_eq_self.mpr hall]
    exact ⟨rfl, rfl⟩

end RtpBenchmarks.Uvgrtp
