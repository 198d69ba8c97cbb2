import RtpBenchmarks.Foundation.Runs
import RtpBenchmarks.Foundation.Scalars
import RtpBenchmarks.V3c.Receive

set_option autoImplicit false

/-!
# uvgRTP receiver (`uvgrtp/receiver.cc`)

`main` starts `nthreads` receiver threads (one, with `nthreads = 1`, for atlas data).
Each installs a hook on its own stream and waits in a loop; the hook runs once for each
frame of the stream.  A result line is appended by the hook that counts frame
`EXPECTED_FRAMES`, or by a wait loop that saw no new frame for 200 ms, and a wait loop
ends without a line once `nready` has reached `nthreads`.

The program is a step function: `step nthreads` takes one atomic step of one thread,
which is the installation of its hook, one call of its hook, one iteration of its wait
loop or its cleanup, and a run is any schedule of such steps.  Every reading of the
clock is part of the step that makes it, so that a timeout may or may not have elapsed.
`Steps` lists what a step can do.
-/

namespace RtpBenchmarks.Uvgrtp

open RtpBenchmarks.Foundation
open RtpBenchmarks.V3c (RtpFrame)

/-! ## The code -/

/-- `EXPECTED_FRAMES`. -/
def expectedFrames : Nat := 604

/-- `struct thread_info`; time points in clock ticks. -/
structure ThreadInfo where
  pkts : Nat := 0
  bytes : Nat := 0
  start : Int := 0
  last : Int := 0
  deriving DecidableEq, Repr, Inhabited

/-- What is printed for a slot, and the thread that prints it. -/
structure ResultLine where
  thread : Nat
  bytes : Nat
  packets : Nat
  diffMs : Nat
  deriving DecidableEq, Repr

/-- The arguments of `write_receive_results_to_file`. -/
def ThreadInfo.line (info : ThreadInfo) (thread : Nat) : ResultLine where
  thread
  bytes := info.bytes
  packets := info.pkts
  diffMs := milliseconds (info.last - info.start)

/-- Where a thread is in `receiver_thread`: before the installation of its hook, in the
wait loop with its two local variables, past the loop, or past `cleanup_uvgrtp`. -/
inductive Phase where
  | starting
  | waiting (previousPackets lastUpdate : Int)
  | left
  | closed
  deriving DecidableEq, Repr

/-- The hook can be called. -/
def Phase.hooked : Phase → Bool
  | .waiting _ _ | .left => true
  | .starting | .closed => false

/-- The globals, the threads and the lines printed: to the result file, and by the hook
to `stderr`. -/
structure ReceiverState where
  threadInfo : Nat → ThreadInfo
  nready : Int
  framesReceived : Int
  threads : Nat → Phase
  results : List ResultLine
  discarded : List ResultLine

/-- The state in which `main` starts the threads. -/
def initial : ReceiverState where
  threadInfo _ := {}
  nready := 0
  framesReceived := 0
  threads _ := .starting
  results := []
  discarded := []

/-- `int tid = thread_num / 2`. -/
def tidOf (threadNum : Nat) : Nat :=
  threadNum / 2

/-- The hook's first statement: the first frame of a slot starts its clock. -/
def ThreadInfo.begin (info : ThreadInfo) (now : Int) : ThreadInfo :=
  if info.pkts = 0 then { info with start := now } else info

/-- The hook's updates for a frame. -/
def ThreadInfo.count (info : ThreadInfo) (frame : RtpFrame) (now : Int) : ThreadInfo :=
  { info with
    last := now
    bytes := info.bytes + frame.payload.length
    pkts := info.pkts + 1 }

/-- `hook(&tid, frame)` on the stream of a thread, at the times `now` and `now'`. -/
def hook (s : ReceiverState) (threadNum : Nat) (frame : Option RtpFrame) (now now' : Int) :
    ReceiverState :=
  let tid := tidOf threadNum
  let info := (s.threadInfo tid).begin now
  match frame with
  | none =>
    { s with
      threadInfo := Function.update s.threadInfo tid info
      discarded := s.discarded ++ [info.line threadNum]
      nready := atomicInc s.nready }
  | some frame =>
    let info := info.count frame now'
    let s :=
      { s with
        threadInfo := Function.update s.threadInfo tid info
        framesReceived := atomicInc s.framesReceived }
    if info.pkts = expectedFrames then
      { s with
        results := s.results ++ [info.line threadNum]
        nready := atomicInc s.nready }
    else s

/-- Move a thread. -/
def ReceiverState.setPhase (s : ReceiverState) (threadNum : Nat) (p : Phase) :
    ReceiverState :=
  { s with threads := Function.update s.threads threadNum p }

/-- The test of the wait loop and one iteration of its body, at the time `now`. -/
def waitIteration (nthreads : Nat) (s : ReceiverState) (threadNum : Nat)
    (previousPackets lastUpdate now : Int) : ReceiverState :=
  if s.nready < nthreads then
    if s.framesReceived ≠ previousPackets then
      s.setPhase threadNum (.waiting s.framesReceived now)
    else if lastUpdate + 200 * 1000000 ≤ now then
      { s with results := s.results ++ [(s.threadInfo (tidOf threadNum)).line threadNum]
        }.setPhase threadNum .left
    else s
  else s.setPhase threadNum .left

/-- One atomic step of a thread. -/
inductive Event where
  | install (threadNum : Nat) (ok : Bool) (now : Int)
  | hook (threadNum : Nat) (frame : Option RtpFrame) (now now' : Int)
  | iterate (threadNum : Nat) (now : Int)
  | cleanup (threadNum : Nat)
  deriving DecidableEq, Repr

/-- A step of the program; `none` where the thread cannot take it. -/
def step (nthreads : Nat) (s : ReceiverState) : Event → Option ReceiverState
  | .install i ok now =>
    if i < nthreads ∧ s.threads i = .starting then
      some (s.setPhase i (if ok then .waiting 0 now else .closed))
    else none
  | .hook i frame now now' =>
    if i < nthreads ∧ (s.threads i).hooked then some (hook s i frame now now') else none
  | .iterate i now =>
    match s.threads i with
    | .waiting previousPackets lastUpdate =>
      if i < nthreads then some (waitIteration nthreads s i previousPackets lastUpdate now)
      else none
    | _ => none
  | .cleanup i =>
    if i < nthreads ∧ s.threads i = .left then some (s.setPhase i .closed) else none

/-- Every thread has been joined. -/
def Complete (nthreads : Nat) (s : ReceiverState) : Prop :=
  ∀ i < nthreads, s.threads i = .closed

instance (nthreads : Nat) (s : ReceiverState) : Decidable (Complete nthreads s) :=
  inferInstanceAs (Decidable (∀ i < nthreads, s.threads i = .closed))

/-- The threads that have appended a line, in the order of the lines. -/
def ReceiverState.writers (s : ReceiverState) : List Nat :=
  s.results.map (·.thread)

/-! ## What a step does -/

/-- The call is the one that counts frame `EXPECTED_FRAMES` of its slot. -/
def Completes (s : ReceiverState) (threadNum : Nat) (frame : Option RtpFrame) : Prop :=
  frame.isSome ∧ (s.threadInfo (tidOf threadNum)).pkts + 1 = expectedFrames

instance (s : ReceiverState) (threadNum : Nat) (frame : Option RtpFrame) :
    Decidable (Completes s threadNum frame) :=
  inferInstanceAs (Decidable (_ ∧ _))

@[simp] theorem ThreadInfo.begin_pkts (info : ThreadInfo) (now : Int) :
    (info.begin now).pkts = info.pkts := by
  unfold ThreadInfo.begin
  split <;> rfl

@[simp] theorem ThreadInfo.begin_bytes (info : ThreadInfo) (now : Int) :
    (info.begin now).bytes = info.bytes := by
  unfold ThreadInfo.begin
  split <;> rfl

section Hook

variable (s : ReceiverState) (i : Nat) (frame : Option RtpFrame) (now now' : Int)

@[simp] theorem hook_threads : (hook s i frame now now').threads = s.threads := by
  cases frame with
  | none => rfl
  | some frame =>
    simp only [hook]
    split <;> rfl

/-- The slot of a thread after a call of its hook. -/
theorem hook_threadInfo :
    (hook s i frame now now').threadInfo =
      Function.update s.threadInfo (tidOf i)
        (match frame with
        | none => (s.threadInfo (tidOf i)).begin now
        | some frame => ((s.threadInfo (tidOf i)).begin now).count frame now') := by
  cases frame with
  | none => rfl
  | some frame =>
    simp only [hook]
    split <;> rfl

/-- A call of the hook adds a line if it completes its slot. -/
theorem hook_results :
    (hook s i frame now now').results =
      s.results ++
        if Completes s i frame then
          [((hook s i frame now now').threadInfo (tidOf i)).line i]
        else [] := by
  rw [hook_threadInfo, Function.update_self]
  cases frame with
  | none => simp [hook, Completes]
  | some frame =>
    simp only [hook, Completes, ThreadInfo.count, ThreadInfo.begin_pkts, Option.isSome_some,
      true_and]
    split <;> simp

theorem hook_writers :
    (hook s i frame now now').writers =
      s.writers ++ if Completes s i frame then [i] else [] := by
  rw [ReceiverState.writers, hook_results, List.map_append, apply_ite (List.map _)]
  rfl

/-- A call of the hook with a null frame, or one that completes its slot, counts its
thread as ready. -/
theorem hook_nready :
    (hook s i frame now now').nready =
      if frame = none ∨ Completes s i frame then atomicInc s.nready else s.nready := by
  cases frame with
  | none => simp [hook]
  | some frame =>
    simp only [hook, Completes, ThreadInfo.count, ThreadInfo.begin_pkts, Option.isSome_some,
      true_and, reduceCtorEq, false_or]
    split <;> rfl

/-- A call of the hook counts its frame in its slot. -/
theorem hook_pkts (tid : Nat) :
    ((hook s i frame now now').threadInfo tid).pkts =
      (s.threadInfo tid).pkts + if tid = tidOf i ∧ frame.isSome then 1 else 0 := by
  rw [hook_threadInfo]
  by_cases ht : tid = tidOf i
  · subst ht
    cases frame <;> simp [ThreadInfo.count]
  · simp [ht]

end Hook

/-- The steps of the program, one constructor for each thing that can happen. -/
inductive Steps (nthreads : Nat) (s : ReceiverState) : Event → ReceiverState → Prop where
  | installed {i : Nat} {now : Int} (hi : i < nthreads) (hp : s.threads i = .starting) :
      Steps nthreads s (.install i true now) (s.setPhase i (.waiting 0 now))
  | failed {i : Nat} {now : Int} (hi : i < nthreads) (hp : s.threads i = .starting) :
      Steps nthreads s (.install i false now) (s.setPhase i .closed)
  | called {i : Nat} {frame : Option RtpFrame} {now now' : Int} (hi : i < nthreads)
      (hp : (s.threads i).hooked) :
      Steps nthreads s (.hook i frame now now') (hook s i frame now now')
  | progressed {i : Nat} {now prev upd : Int} (hi : i < nthreads)
      (hp : s.threads i = .waiting prev upd) :
      Steps nthreads s (.iterate i now) (s.setPhase i (.waiting s.framesReceived now))
  | timedOut {i : Nat} {now prev upd : Int} (hi : i < nthreads)
      (hp : s.threads i = .waiting prev upd) (hn : s.nready < nthreads) :
      Steps nthreads s (.iterate i now)
        ({ s with results := s.results ++ [(s.threadInfo (tidOf i)).line i] }.setPhase i .left)
  | idled {i : Nat} {now : Int} : Steps nthreads s (.iterate i now) s
  | ready {i : Nat} {now prev upd : Int} (hi : i < nthreads)
      (hp : s.threads i = .waiting prev upd) (hn : (nthreads : Int) ≤ s.nready) :
      Steps nthreads s (.iterate i now) (s.setPhase i .left)
  | cleaned {i : Nat} (hi : i < nthreads) (hp : s.threads i = .left) :
      Steps nthreads s (.cleanup i) (s.setPhase i .closed)

theorem steps_of_step {nthreads : Nat} {s s' : ReceiverState} {e : Event}
    (h : step nthreads s e = some s') : Steps nthreads s e s' := by
  cases e with
  | install i ok now =>
    simp only [step, Option.ite_none_right_eq_some, Option.some.injEq] at h
    obtain ⟨⟨hi, hp⟩, rfl⟩ := h
    cases ok with
    | true => exact .installed hi hp
    | false => exact .failed hi hp
  | hook i frame now now' =>
    simp only [step, Option.ite_none_right_eq_some, Option.some.injEq] at h
    obtain ⟨⟨hi, hp⟩, rfl⟩ := h
    exact .called hi hp
  | iterate i now =>
    cases hp : s.threads i with
    | waiting prev upd =>
      simp only [step, hp, Option.ite_none_right_eq_some, Option.some.injEq] at h
      obtain ⟨hi, rfl⟩ := h
      simp only [waitIteration]
      split_ifs with hn hf ht
      · exact .progressed hi hp
      · exact .timedOut hi hp hn
      · exact .idled
      · exact .ready hi hp (Int.not_lt.mp hn)
    | starting => simp [step, hp] at h
    | left => simp [step, hp] at h
    | closed => simp [step, hp] at h
  | cleanup i =>
    simp only [step, Option.ite_none_right_eq_some, Option.some.injEq] at h
    obtain ⟨⟨hi, hp⟩, rfl⟩ := h
    exact .cleaned hi hp

/-- The thread has left its wait loop. -/
@[simp] def Phase.past : Phase → Bool
  | .left | .closed => true
  | .starting | .waiting _ _ => false

theorem setPhase_threads (s : ReceiverState) (i j : Nat) (p : Phase) :
    (s.setPhase i p).threads j = if j = i then p else s.threads j := by
  simp [ReceiverState.setPhase, Function.update_apply]

/-- Moving a thread that stays on its side of the wait loop's end. -/
theorem setPhase_past {s : ReceiverState} {i : Nat} {p : Phase}
    (hp : p.past = (s.threads i).past) (j : Nat) :
    ((s.setPhase i p).threads j).past = (s.threads j).past := by
  rw [setPhase_threads]
  split_ifs with hj
  · rw [hj, hp]
  · rfl

@[simp] theorem setPhase_writers (s : ReceiverState) (i : Nat) (p : Phase) :
    (s.setPhase i p).writers = s.writers := rfl

@[simp] theorem append_line_writers (s : ReceiverState) (line : ResultLine) :
    ({ s with results := s.results ++ [line] } : ReceiverState).writers =
      s.writers ++ [line.thread] := by
  simp [ReceiverState.writers]

end RtpBenchmarks.Uvgrtp
