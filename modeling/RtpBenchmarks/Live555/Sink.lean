import RtpBenchmarks.Foundation.Scalars
import RtpBenchmarks.Foundation.Watch
import RtpBenchmarks.Results.ParseRecv

set_option autoImplicit false

/-!
# Live555 receiver (`live555/sink.cc`)

`afterGettingFrame` counts the frames; the first one starts a thread that looks every two
seconds whether the count has changed and ends the process when it has not.  The process
prints its result when the count reaches 601 or when the thread ends it, and its exit code
tells the two apart.

Neither `bytes` nor `start` is ever assigned.  So the result has no bytes, and its time is
the time of the clock.
-/

namespace RtpBenchmarks.Live555.Sink

open RtpBenchmarks.Foundation
open RtpBenchmarks.Results

/-! ## The code -/

/-- The frame that ends a run. -/
def lastFrame : Nat := 601

/-- The globals, what is printed, and the exit code.  `monitor` is the `prev_frames` of
`thread_func` once it runs. -/
structure State where
  frames : Nat := 0
  bytes : Nat := 0
  start : Int := 0
  monitor : Option Nat := none
  printed : List ReceiveResult := []
  exited : Option Int := none
  deriving DecidableEq

/-- The line that is printed at both exits. -/
def State.line (s : State) (now : Int) : ReceiveResult where
  bytes := s.bytes
  packets := s.frames
  ms := milliseconds (now - s.start)

/-- `fprintf` and `exit`. -/
def State.exit (s : State) (now : Int) (exitCode : Int) : State :=
  { s with printed := s.printed ++ [s.line now], exited := some exitCode }

/-- The monitor starts with the first frame, with `prev_frames` at `UINT_MAX`. -/
def startMonitor (s : State) : State :=
  if s.frames = 0 then { s with monitor := some (2 ^ 32 - 1) } else s

/-- `RTPSink_::afterGettingFrame`, which does not look at the frame. -/
def afterGettingFrame (s : State) (now : Int) : State :=
  let s := startMonitor s
  let s := { s with frames := s.frames + 1 }
  if s.frames = lastFrame then s.exit now 0 else s

/-- One round of `thread_func`. -/
def threadFunc (s : State) (now : Int) : Option State :=
  match s.monitor with
  | none => none
  | some prevFrames =>
    if prevFrames = s.frames then some (s.exit now 1)
    else some { s with monitor := some (s.frames % 2 ^ 32) }

/-- A frame is received, or the monitor wakes up. -/
inductive Event where
  | frame (now : Int)
  | monitor (now : Int)
  deriving DecidableEq, Repr

/-- A step of the running process; `none` where it cannot be taken. -/
def step (s : State) (e : Event) : Option State :=
  if s.exited.isSome then none
  else
    match e with
    | .frame now => some (afterGettingFrame s now)
    | .monitor now => threadFunc s now

/-- Frames are what the monitor waits for. -/
def signal : Event → Option Signal
  | .frame _ => some .arrival
  | .monitor _ => some .check

/-- The time at which a step is taken. -/
def Event.now : Event → Int
  | .frame now => now
  | .monitor now => now

/-- How many frames have been received. -/
def received (evs : List Event) : Nat :=
  evs.countP fun e => signal e = some .arrival

/-! ## What a step does -/

/-- The state behind `++frames`. -/
def State.counted (s : State) : State :=
  { startMonitor s with frames := s.frames + 1 }

/-- What a step can do: its guards, and the state it leaves. -/
inductive Took (s : State) : Event → State → Prop where
  | count (now : Int) (more : s.frames + 1 ≠ lastFrame) : Took s (.frame now) s.counted
  | finish (now : Int) (last : s.frames + 1 = lastFrame) :
      Took s (.frame now) (s.counted.exit now 0)
  | lapse (now : Int) (seen : s.monitor = some s.frames) : Took s (.monitor now) (s.exit now 1)
  | look (now : Int) {prevFrames : Nat} (monitor : s.monitor = some prevFrames)
      (fresh : prevFrames ≠ s.frames) :
      Took s (.monitor now) { s with monitor := some (s.frames % 2 ^ 32) }

/-- Nothing is printed before the exit, the exit code tells whether all frames have been
received, and the monitor starts with the first frame. -/
structure Sound (s : State) : Prop where
  running : s.exited = none → s.printed = [] ∧ s.frames < lastFrame
  ended : ∀ code ∈ s.exited, code = 0 ∧ s.frames = lastFrame ∨ code = 1 ∧ s.frames < lastFrame
  unused : s.bytes = 0 ∧ s.start = 0
  idle : s.frames = 0 → s.monitor = none

section Steps

variable {s s' : State} {e : Event}

theorem took_of_step (h : step s e = some s') : s.exited = none ∧ Took s e s' := by
  unfold step at h
  split_ifs at h with hexit
  refine ⟨by simpa using hexit, ?_⟩
  have hframes : (startMonitor s).frames = s.frames := by
    unfold startMonitor
    split_ifs <;> rfl
  cases e with
  | frame now =>
    obtain rfl := Option.some.inj h
    unfold afterGettingFrame
    dsimp only
    rw [hframes]
    split_ifs with hlast
    · exact .finish now hlast
    · exact .count now hlast
  | monitor now =>
    dsimp only at h
    unfold threadFunc at h
    split at h
    · cases h
    · next prev hprev =>
      split_ifs at h with heq
      · cases h
        exact .lapse now (heq ▸ hprev)
      · cases h
        exact .look now hprev heq

theorem sound_initial : Sound {} where
  running _ := ⟨rfl, by decide⟩
  ended := by simp
  unused := ⟨rfl, rfl⟩
  idle _ := rfl

/-- Only the monitor and the counter change. -/
theorem counted_frame (s : State) : s.counted.frames = s.frames + 1 ∧
    s.counted.exited = s.exited ∧ s.counted.printed = s.printed ∧
    s.counted.bytes = s.bytes ∧ s.counted.start = s.start ∧
    s.counted.monitor = if s.frames = 0 then some (2 ^ 32 - 1) else s.monitor := by
  unfold State.counted startMonitor
  split_ifs <;> exact ⟨rfl, rfl, rfl, rfl, rfl, rfl⟩

theorem exit_sound (hunused : s.bytes = 0 ∧ s.start = 0) {code : Int}
    (hcode : code = 0 ∧ s.frames = lastFrame ∨ code = 1 ∧ s.frames < lastFrame) (now : Int)
    (hidle : s.frames = 0 → s.monitor = none) :
    Sound (s.exit now code) where
  running hnone := by cases hnone
  ended := by
    rintro _ ⟨⟩
    exact hcode
  unused := hunused
  idle := hidle

theorem Sound.step (h : Sound s) (hs : Sink.step s e = some s') : Sound s' := by
  obtain ⟨hnone, htook⟩ := took_of_step hs
  obtain ⟨hprinted, hlt⟩ := h.running hnone
  obtain ⟨hframes, hexited, hsame, hbytes, hstart, -⟩ := counted_frame s
  have hunused : s.counted.bytes = 0 ∧ s.counted.start = 0 := by
    rw [hbytes, hstart]
    exact h.unused
  have hcounted : s.counted.frames = 0 → s.counted.monitor = none := fun hzero => by omega
  cases htook with
  | count now more =>
    refine ⟨fun _ => ⟨hsame.trans hprinted, by omega⟩, fun code hcode => ?_, hunused, hcounted⟩
    rw [hexited, hnone] at hcode
    cases hcode
  | finish now last =>
    exact exit_sound hunused (.inl ⟨rfl, hframes.trans last⟩) now hcounted
  | lapse now seen => exact exit_sound h.unused (.inr ⟨rfl, hlt⟩) now h.idle
  | look now monitor fresh =>
    refine ⟨fun _ => ⟨hprinted, hlt⟩, fun code hcode => ?_, h.unused, fun hzero => ?_⟩
    · rw [hnone] at hcode
      cases hcode
    · rw [h.idle hzero] at monitor
      cases monitor

/-- The monitor ends the process when its copy is the counter, and no other step does so. -/
theorem Took.lapse_iff (h : Took s e s') (hnone : s.exited = none) :
    s'.exited = some 1 ↔ signal e = some .check ∧ s.monitor = some s.frames := by
  have hexited := (counted_frame s).2.1
  cases h with
  | count now more => simp [hexited, hnone, signal]
  | finish now last => simp [State.exit, signal]
  | lapse now seen => simp [State.exit, signal, seen]
  | look now monitor fresh => simp [hnone, signal, monitor, fresh]

/-- The monitor is a watch over the counter. -/
def watch : CounterWatch step signal (fun s => s.exited = none) (fun s => s.exited = some 1)
    State.frames State.monitor where
  Inv := Sound
  inv_step h hs := h.step hs
  count_lt h hnone := Nat.lt_trans (h.running hnone).2 (by decide)
  running_step hs := (took_of_step hs).1
  expired_stops h hnone := by cases h.symm.trans hnone
  expired_step hs := (took_of_step hs).2.lapse_iff (took_of_step hs).1
  arrival hs _ hsignal := by
    cases (took_of_step hs).2 with
    | count now more => exact ⟨(counted_frame _).1, (counted_frame _).2.2.2.2.2⟩
    | finish now last => exact ⟨(counted_frame _).1, (counted_frame _).2.2.2.2.2⟩
    | lapse now seen => cases hsignal
    | look now monitor fresh => cases hsignal
  check hs hrun' hsignal := by
    cases (took_of_step hs).2 with
    | count now more => cases hsignal
    | finish now last => cases hsignal
    | lapse now seen => cases hrun'
    | look now monitor fresh => exact ⟨rfl, rfl⟩
  other hs _ hsignal := by
    cases (took_of_step hs).2 <;> cases hsignal

/-- The steps that count a frame are those of the frames. -/
theorem Took.frames_eq (h : Took s e s') :
    s'.frames = s.frames + if signal e = some .arrival then 1 else 0 := by
  have hframes := (counted_frame s).1
  cases h with
  | count now more => exact hframes
  | finish now last => exact hframes
  | lapse now seen => rfl
  | look now monitor fresh => rfl

/-- A process exits after a frame. -/
theorem Took.frames_pos (h : Took s e s') (hs : Sound s) (hnone : s.exited = none)
    (hexit : s'.exited ≠ none) : 0 < s'.frames := by
  obtain ⟨hframes, hexited, -⟩ := counted_frame s
  cases h with
  | count now more => exact absurd (hexited.trans hnone) hexit
  | finish now last =>
    change 0 < s.counted.frames
    omega
  | lapse now seen =>
    refine Nat.pos_of_ne_zero fun hzero => ?_
    rw [hs.idle hzero] at seen
    cases seen
  | look now monitor fresh => exact absurd hnone hexit

/-- A process that exits prints its result at that time. -/
theorem Took.printed_eq (h : Took s e s') (hs : Sound s) (hnone : s.exited = none)
    (hexit : s'.exited ≠ none) :
    s'.printed = [{ bytes := 0, packets := s'.frames, ms := milliseconds e.now }] := by
  obtain ⟨-, hexited, hprinted, hbytes, hstart, -⟩ := counted_frame s
  have hempty := (hs.running hnone).1
  obtain ⟨hzero, hunset⟩ := hs.unused
  cases h with
  | count now more => exact absurd (hexited.trans hnone) hexit
  | finish now last =>
    simp [State.exit, State.line, hprinted, hempty, hbytes, hzero, hstart, hunset, Event.now]
  | lapse now seen => simp [State.exit, State.line, hempty, hzero, hunset, Event.now]
  | look now monitor fresh => exact absurd hnone hexit

/-- What is counted are the frames that are received. -/
theorem frames_eq_received {events : List Event} (hrun : Run Sink.step {} events s) :
    s.frames = received events := by
  refine hrun.invariant (I := fun done s => s.frames = received done) rfl ?_
  intro done mid e mid' _ hcount hs
  rw [(took_of_step hs).2.frames_eq, hcount, received, received, List.countP_append,
    List.countP_singleton]
  simp

end Steps

/-! ## Any run -/

section Runs

variable {events : List Event} {s : State}

theorem sound_of_run (hrun : Run step {} events s) : Sound s :=
  Run.invariant (I := fun _ s => Sound s) sound_initial (fun _ _ _ _ _ h hs => h.step hs) hrun

theorem Sound.exit_zero_iff (h : Sound s) : s.exited = some 0 ↔ s.frames = lastFrame := by
  cases hexited : s.exited with
  | none => exact iff_of_false (by simp) (h.running hexited).2.ne
  | some code =>
    rcases h.ended code hexited with ⟨rfl, hall⟩ | ⟨rfl, hlt⟩
    · exact iff_of_true rfl hall
    · exact iff_of_false (by decide) hlt.ne

theorem Sound.frames_le (h : Sound s) : s.frames ≤ lastFrame := by
  cases hexited : s.exited with
  | none => exact (h.running hexited).2.le
  | some code => rcases h.ended code hexited with ⟨-, hall⟩ | ⟨-, hlt⟩ <;> omega

/-- The last step of a run that has ended prints the result. -/
theorem printed_of_exited (hrun : Run step {} events s) (hexit : s.exited ≠ none) :
    0 < received events ∧ ∃ e, events.getLast? = some e ∧
      s.printed = [{ bytes := 0, packets := received events, ms := milliseconds e.now }] := by
  rw [← frames_eq_received hrun]
  obtain rfl | ⟨front, e, rfl⟩ := List.eq_nil_or_concat events
  · obtain rfl := run_nil.mp hrun
    exact absurd rfl hexit
  · rw [List.concat_eq_append] at hrun ⊢
    obtain ⟨mid, hmid, hs⟩ := run_concat.mp hrun
    obtain ⟨hnone, htook⟩ := took_of_step hs
    have hsound := sound_of_run hmid
    exact ⟨htook.frames_pos hsound hnone hexit, e, List.getLast?_concat,
      htook.printed_eq hsound hnone hexit⟩

end Runs

end RtpBenchmarks.Live555.Sink
