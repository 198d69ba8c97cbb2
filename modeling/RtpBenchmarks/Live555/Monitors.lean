import RtpBenchmarks.Foundation.Watch
import RtpBenchmarks.Live555.LatencyReceiver
import RtpBenchmarks.Live555.LatencySender

set_option autoImplicit false

/-!
# Monitors of the Live555 latency programs (`thread_func`)

Both programs start a monitor with the first frame they receive, which looks now and then
whether the count of frames has changed and ends the process when it has not.  Each such
monitor is a watch over the counter.
-/

namespace RtpBenchmarks.Live555

open RtpBenchmarks.Foundation

/-! ## The receiver -/

namespace LatencyReceiver

/-- The frame that ends a run. -/
def lastFrame : Nat := 602

/-- Frames are what the monitor waits for. -/
def signal : Event → Option Signal
  | .receive _ => some .arrival
  | .request _ => none
  | .monitor => some .check

/-- The monitor has ended the process. -/
def Inactive (s : State) : Prop :=
  ∃ report, s.exited = some (.inactive report)

/-- The process has ended with the last frame. -/
def Finished (s : State) : Prop :=
  ∃ report, s.exited = some (.finished report)

section Steps

variable {s s' : State} {e : Event} {frame : Frame}

/-- The counter, the monitor and the exit are not touched. -/
theorem deliverFrame_frame (h : deliverFrame s = .ok s') :
    s'.frames = s.frames ∧ s'.monitor = s.monitor ∧ s'.received = s.received ∧
      s'.exited = s.exited := by
  unfold deliverFrame at h
  split_ifs at h
  · cases h
    exact ⟨rfl, rfl, rfl, rfl⟩
  · simp only [bind_eq_ok_iff] at h
    obtain ⟨fTo, -, hfTo⟩ := h
    cases hfTo
    exact ⟨rfl, rfl, rfl, rfl⟩
  · cases h
    exact ⟨rfl, rfl, rfl, rfl⟩

theorem startMonitor_frame (s : State) :
    (startMonitor s).frames = s.frames ∧ (startMonitor s).received = s.received ∧
      (startMonitor s).exited = s.exited ∧
      (startMonitor s).monitor = if s.frames = 0 then some (2 ^ 32 - 1) else s.monitor := by
  unfold startMonitor
  split_ifs <;> exact ⟨rfl, rfl, rfl, rfl⟩

theorem countFrame_frame (s : State) :
    (countFrame s).frames = s.frames + 1 ∧ (countFrame s).received = s.received ∧
      (countFrame s).monitor = s.monitor ∧ (countFrame s).exited =
        if s.frames + 1 = lastFrame then some (.finished (countFrame s).report) else s.exited := by
  unfold countFrame lastFrame
  dsimp only
  split_ifs <;> exact ⟨rfl, rfl, rfl, rfl⟩

/-- A frame is counted. -/
theorem afterGettingFrame_frame (h : afterGettingFrame s frame = .ok s') :
    s'.frames = s.frames + 1 ∧ s'.received = s.received ++ [frame.val] ∧
      s'.monitor = (if s.frames = 0 then some (2 ^ 32 - 1) else s.monitor) ∧
      s'.exited = if s.frames + 1 = lastFrame then some (.finished s'.report) else s.exited := by
  unfold afterGettingFrame at h
  simp only [bind_eq_ok_iff] at h
  obtain ⟨s₁, hdeliver, hcount⟩ := h
  obtain rfl := Except.ok.inj hcount
  obtain ⟨hframes, hmonitor, hreceived, hexited⟩ := deliverFrame_frame hdeliver
  obtain ⟨hstart, hlist, hexit, hnew⟩ :=
    startMonitor_frame { s with received := s.received ++ [frame.val] }
  obtain ⟨hcount, hsame, hkept, hend⟩ := countFrame_frame s₁
  have hframes' : s₁.frames = s.frames := hframes.trans hstart
  have hexited' : s₁.exited = s.exited := hexited.trans hexit
  rw [hframes'] at hcount hend
  rw [hexited'] at hend
  exact ⟨hcount, hsame.trans (hreceived.trans hlist), hkept.trans (hmonitor.trans hnew), hend⟩

/-- What a step can do to the counter and the monitor. -/
inductive Counted (s : State) : Event → State → Prop where
  | receive {s' : State} (frame : Frame) (frames : s'.frames = s.frames + 1)
      (received : s'.received = s.received ++ [frame.val])
      (monitor : s'.monitor = if s.frames = 0 then some (2 ^ 32 - 1) else s.monitor)
      (exited : s'.exited = if s.frames + 1 = lastFrame then some (.finished s'.report) else none) :
      Counted s (.receive frame) s'
  | request {s' : State} (fMaxSize : UInt32) (frames : s'.frames = s.frames)
      (received : s'.received = s.received) (monitor : s'.monitor = s.monitor)
      (exited : s'.exited = none) : Counted s (.request fMaxSize) s'
  | lapse (seen : s.monitor = some s.frames) :
      Counted s .monitor { s with exited := some (.inactive s.report) }
  | look {prevFrames : Nat} (monitor : s.monitor = some prevFrames)
      (fresh : prevFrames ≠ s.frames) :
      Counted s .monitor { s with monitor := some (s.frames % 2 ^ 32) }

theorem counted_of_step (h : step s e = some s') : s.exited = none ∧ Counted s e s' := by
  unfold step at h
  split_ifs at h with hexit
  have hnone : s.exited = none := by simpa using hexit
  refine ⟨hnone, ?_⟩
  cases e with
  | receive frame =>
    obtain ⟨hframes, hreceived, hmonitor, hexited⟩ :=
      afterGettingFrame_frame (toOption_eq_some_iff.mp h)
    rw [hnone] at hexited
    exact .receive frame hframes hreceived hmonitor hexited
  | request fMaxSize =>
    obtain ⟨hframes, hmonitor, hreceived, hexited⟩ :=
      deliverFrame_frame (toOption_eq_some_iff.mp h)
    exact .request fMaxSize hframes hreceived hmonitor (hexited.trans hnone)
  | monitor =>
    dsimp only at h
    unfold threadFunc at h
    split at h
    · cases h
    · next prev hprev =>
      split_ifs at h with heq
      · cases h
        exact .lapse (heq ▸ hprev)
      · cases h
        exact .look hprev heq

/-- The counter counts what is received, and the exit tells whether that is all. -/
structure Tallied (s : State) : Prop where
  frames : s.frames = s.received.length
  running : s.exited = none → s.frames < lastFrame
  finished : ∀ report, s.exited = some (.finished report) →
    s.frames = lastFrame ∧ report = s.report
  inactive : ∀ report, s.exited = some (.inactive report) →
    s.frames < lastFrame ∧ report = s.report

theorem tallied_initial : Tallied {} where
  frames := rfl
  running _ := by decide
  finished _ h := by cases h
  inactive _ h := by cases h

theorem Tallied.step (h : Tallied s) (hs : LatencyReceiver.step s e = some s') : Tallied s' := by
  obtain ⟨hnone, hcounted⟩ := counted_of_step hs
  have hlt := h.running hnone
  cases hcounted with
  | receive frame frames received monitor exited =>
    have hlength : s'.frames = s'.received.length := by
      rw [frames, received, List.length_append, h.frames]
      rfl
    split_ifs at exited with hlast
    · refine ⟨hlength, fun hrun => ?_, fun report hreport => ?_, fun report hreport => ?_⟩
      · cases exited.symm.trans hrun
      · cases exited.symm.trans hreport
        exact ⟨frames.trans hlast, rfl⟩
      · cases exited.symm.trans hreport
    · refine ⟨hlength, fun _ => by omega, fun report hreport => ?_, fun report hreport => ?_⟩
      · cases exited.symm.trans hreport
      · cases exited.symm.trans hreport
  | request fMaxSize frames received monitor exited =>
    refine ⟨by rw [frames, received, h.frames], fun _ => frames ▸ hlt, fun report hreport => ?_,
      fun report hreport => ?_⟩
    · cases exited.symm.trans hreport
    · cases exited.symm.trans hreport
  | lapse seen =>
    refine ⟨h.frames, fun hrun => ?_, fun report hreport => ?_, fun report hreport => ?_⟩
    · cases hrun
    · cases hreport
    · cases hreport
      exact ⟨hlt, rfl⟩
  | look monitor fresh => exact ⟨h.frames, h.running, h.finished, h.inactive⟩

/-- The monitor ends the process when its copy is the counter, and no other step does so. -/
theorem Counted.inactive_iff (h : Counted s e s') (hnone : s.exited = none) :
    Inactive s' ↔ signal e = some .check ∧ s.monitor = some s.frames := by
  unfold Inactive
  cases h with
  | receive frame frames received monitor exited =>
    rw [exited]
    split_ifs <;> simp [signal]
  | request fMaxSize frames received monitor exited => simp [exited, signal]
  | lapse seen => simp [signal, seen]
  | look monitor fresh => simp [hnone, signal, monitor, fresh]

/-- The monitor is a watch over the counter. -/
def watch : CounterWatch step signal (fun s => s.exited = none) Inactive
    State.frames State.monitor where
  Inv := Tallied
  inv_step h hs := h.step hs
  count_lt h hnone := Nat.lt_trans (h.running hnone) (by decide)
  running_step hs := (counted_of_step hs).1
  expired_stops := by
    rintro s ⟨report, h⟩ hnone
    cases h.symm.trans hnone
  expired_step hs := (counted_of_step hs).2.inactive_iff (counted_of_step hs).1
  arrival hs _ hsignal := by
    cases (counted_of_step hs).2 with
    | receive frame frames received monitor exited => exact ⟨frames, monitor⟩
    | request fMaxSize frames received monitor exited => cases hsignal
    | lapse seen => cases hsignal
    | look monitor fresh => cases hsignal
  check hs hrun' hsignal := by
    cases (counted_of_step hs).2 with
    | receive frame frames received monitor exited => cases hsignal
    | request fMaxSize frames received monitor exited => cases hsignal
    | lapse seen => cases hrun'
    | look monitor fresh => exact ⟨rfl, rfl⟩
  other hs _ hsignal := by
    cases (counted_of_step hs).2 with
    | receive frame frames received monitor exited => cases hsignal
    | request fMaxSize frames received monitor exited => exact ⟨frames, monitor⟩
    | lapse seen => cases hsignal
    | look monitor fresh => cases hsignal

theorem Tallied.finished_iff (h : Tallied s) : Finished s ↔ s.frames = lastFrame := by
  unfold Finished
  cases hexited : s.exited with
  | none => exact iff_of_false (by simp) (h.running hexited).ne
  | some exit =>
    cases exit with
    | inactive report => exact iff_of_false (by simp) (h.inactive report hexited).1.ne
    | finished report => exact iff_of_true ⟨report, rfl⟩ (h.finished report hexited).1

theorem Tallied.frames_le (h : Tallied s) : s.frames ≤ lastFrame := by
  cases hexited : s.exited with
  | none => exact (h.running hexited).le
  | some exit =>
    cases exit with
    | inactive report => exact (h.inactive report hexited).1.le
    | finished report => exact (h.finished report hexited).1.le

end Steps

end LatencyReceiver

/-! ## The sender -/

namespace LatencySender

/-- The frame that ends a run. -/
def lastFrame : Nat := 601

/-- Frames are what the monitor waits for. -/
def signal : Event → Option Signal
  | .deliver _ _ _ => none
  | .receive _ _ => some .arrival
  | .lose _ => none
  | .monitor => some .check

/-- The process has ended over a frame that it could not account for. -/
def Exit.Failure : Exit → Prop
  | .sizeInUse | .notFound _ _ | .sizeMismatch _ _ => True
  | .inactive _ | .finished _ => False

/-- The monitor has ended the process. -/
def Inactive (s : System) : Prop :=
  ∃ report, s.prog.exited = some (.inactive report)

/-- The process has ended with the last frame. -/
def Finished (s : System) : Prop :=
  ∃ report, s.prog.exited = some (.finished report)

section Steps

variable {base : Nat} {mem : List UInt8} {s s' : System} {e : Event}

/-- The counters and the monitor are not touched. -/
theorem deliverFrame_frame {p p' : State} {awaitingData : Bool} {fMaxSize : UInt32} {now : Int}
    {sent : Option (List UInt8)}
    (h : deliverFrame base mem p awaitingData fMaxSize now = .ok (p', sent)) :
    p'.counters = p.counters ∧ p'.monitor = p.monitor ∧
      (p'.exited = p.exited ∨ p'.exited = some .sizeInUse) := by
  cases awaitingData with
  | false =>
    cases h
    exact ⟨rfl, rfl, .inl rfl⟩
  | true =>
    simp only [deliverFrame, if_true, bind_eq_ok_iff] at h
    obtain ⟨⟨nalState, size, data⟩, -, h⟩ := h
    cases data with
    | none =>
      cases h
      exact ⟨rfl, rfl, .inl rfl⟩
    | some data =>
      dsimp only at h
      by_cases hsize : size = 0
      · rw [if_pos hsize] at h
        cases h
        exact ⟨rfl, rfl, .inl rfl⟩
      rw [if_neg hsize] at h
      by_cases huse : size ∈ p.timestamps
      · rw [if_pos huse] at h
        cases h
        exact ⟨rfl, rfl, .inr rfl⟩
      · rw [if_neg huse] at h
        obtain ⟨payload, -, h⟩ := bind_eq_ok_iff.mp h
        cases h
        exact ⟨rfl, rfl, .inl rfl⟩

theorem count_frames (c : Counters) (nalType : UInt8) (diff : Nat) :
    (c.count nalType diff).frames = c.frames + 1 := by
  unfold Counters.count
  split_ifs <;> rfl

theorem startMonitor_frame (p : State) :
    (startMonitor p).counters = p.counters ∧ (startMonitor p).exited = p.exited ∧
      (startMonitor p).monitor =
        if p.counters.frames = 0 then some (2 ^ 32 - 1) else p.monitor := by
  unfold startMonitor
  split_ifs <;> exact ⟨rfl, rfl, rfl⟩

/-- A frame is counted, or the process ends. -/
theorem afterGettingFrame_frame (p : State) (frame : List UInt8) (now : Int) :
    (∃ exit, exit.Failure ∧ (afterGettingFrame p frame now).1.exited = some exit ∧
      (afterGettingFrame p frame now).1.counters = p.counters ∧
      (afterGettingFrame p frame now).2 = none) ∨
    ∃ p' diff, afterGettingFrame p frame now = (p', some diff) ∧
      p'.counters.frames = p.counters.frames + 1 ∧
      p'.monitor = (if p.counters.frames = 0 then some (2 ^ 32 - 1) else p.monitor) ∧
      p'.exited = if p.counters.frames + 1 = lastFrame then some (.finished p'.counters.report)
        else p.exited := by
  obtain ⟨hcounters, hexited, hmonitor⟩ := startMonitor_frame p
  unfold afterGettingFrame
  dsimp only
  cases (startMonitor p).timestamps.lookup frame.length with
  | none => exact .inl ⟨.notFound _ _, trivial, rfl, hcounters, rfl⟩
  | some info =>
    dsimp only
    by_cases hsize : info.second = frame.length
    · rw [if_pos hsize]
      refine .inr ?_
      have hframes := count_frames (startMonitor p).counters (nalType (frame.headD 0))
        (microseconds (now - info.first))
      rw [hcounters] at hframes
      by_cases hlast : p.counters.frames + 1 = lastFrame
      · rw [if_pos (by rw [hcounters, hframes]; exact hlast)]
        refine ⟨_, _, rfl, hcounters ▸ hframes, hmonitor, ?_⟩
        rw [if_pos hlast]
      · rw [if_neg (by rw [hcounters, hframes]; exact hlast)]
        refine ⟨_, _, rfl, hcounters ▸ hframes, hmonitor, ?_⟩
        rw [if_neg hlast]
        exact hexited
    · rw [if_neg hsize]
      exact .inl ⟨.sizeMismatch _ _, trivial, rfl, hcounters, rfl⟩

/-- What a step can do to the counter and the monitor. -/
inductive Counted (s : System) : Event → System → Prop where
  | deliver {s' : System} {awaitingData : Bool} {fMaxSize : UInt32} {now : Int}
      (counters : s'.prog.counters = s.prog.counters) (monitor : s'.prog.monitor = s.prog.monitor)
      (samples : s'.samples = s.samples)
      (exited : s'.prog.exited = none ∨ s'.prog.exited = some .sizeInUse) :
      Counted s (.deliver awaitingData fMaxSize now) s'
  | refuse {s' : System} {i : Nat} {now : Int} {exit : Exit} (failure : exit.Failure)
      (exited : s'.prog.exited = some exit) (counters : s'.prog.counters = s.prog.counters)
      (samples : s'.samples = s.samples) : Counted s (.receive i now) s'
  | receive {s' : System} {i : Nat} {now : Int} {sample : Sample}
      (frames : s'.prog.counters.frames = s.prog.counters.frames + 1)
      (samples : s'.samples = s.samples ++ [sample])
      (monitor : s'.prog.monitor =
        if s.prog.counters.frames = 0 then some (2 ^ 32 - 1) else s.prog.monitor)
      (exited : s'.prog.exited = if s.prog.counters.frames + 1 = lastFrame then
        some (.finished s'.prog.counters.report) else none) : Counted s (.receive i now) s'
  | lose {s' : System} {i : Nat} (prog : s'.prog = s.prog) (samples : s'.samples = s.samples) :
      Counted s (.lose i) s'
  | lapse {s' : System} (seen : s.prog.monitor = some s.prog.counters.frames)
      (prog : s'.prog = { s.prog with exited := some (.inactive s.prog.counters.report) })
      (samples : s'.samples = s.samples) : Counted s .monitor s'
  | look {s' : System} {prevFrames : Nat} (monitor : s.prog.monitor = some prevFrames)
      (fresh : prevFrames ≠ s.prog.counters.frames)
      (prog : s'.prog = { s.prog with monitor := some (s.prog.counters.frames % 2 ^ 32) })
      (samples : s'.samples = s.samples) : Counted s .monitor s'

theorem counted_of_step (h : step base mem s e = some s') :
    s.prog.exited = none ∧ Counted s e s' := by
  unfold step at h
  split_ifs at h with hexit
  have hnone : s.prog.exited = none := by simpa using hexit
  refine ⟨hnone, ?_⟩
  cases e with
  | deliver awaitingData fMaxSize now =>
    dsimp only at h
    split at h
    · cases h
    · next prog hcall =>
      cases h
      obtain ⟨hcounters, hmonitor, hexited⟩ := deliverFrame_frame hcall
      exact .deliver hcounters hmonitor rfl (hexited.imp_left (·.trans hnone))
    · next prog payload hcall =>
      cases h
      obtain ⟨hcounters, hmonitor, hexited⟩ := deliverFrame_frame hcall
      exact .deliver hcounters hmonitor rfl (hexited.imp_left (·.trans hnone))
  | receive i now =>
    dsimp only at h
    split at h
    · cases h
    · next frame hframe =>
      obtain rfl := Option.some.inj h
      rcases afterGettingFrame_frame s.prog frame.payload now with
        ⟨exit, hfailure, hexited, hcounters, hnodiff⟩ | ⟨p', diff, hcall, hframes, hmonitor, hend⟩
      · refine .refuse hfailure hexited hcounters ?_
        rw [hnodiff]
        exact List.append_nil _
      · rw [hcall]
        rw [hnone] at hend
        exact .receive hframes rfl hmonitor hend
  | lose i =>
    dsimp only at h
    split at h
    · cases h
    · cases h
      exact .lose rfl rfl
  | monitor =>
    obtain ⟨prog, hprog, rfl⟩ := Option.map_eq_some_iff.mp h
    unfold threadFunc at hprog
    split at hprog
    · cases hprog
    · next prev hprev =>
      split_ifs at hprog with heq
      · exact .lapse (heq ▸ hprev) (Option.some.inj hprog).symm rfl
      · exact .look hprev heq (Option.some.inj hprog).symm rfl

/-- The counter counts the latencies, and the exit tells whether these are all. -/
structure Tallied (s : System) : Prop where
  frames : s.prog.counters.frames = s.samples.length
  running : s.prog.exited = none → s.prog.counters.frames < lastFrame
  finished : ∀ report, s.prog.exited = some (.finished report) →
    s.prog.counters.frames = lastFrame ∧ report = s.prog.counters.report
  inactive : ∀ report, s.prog.exited = some (.inactive report) →
    s.prog.counters.frames < lastFrame ∧ report = s.prog.counters.report
  failed : ∀ exit, s.prog.exited = some exit → exit.Failure →
    s.prog.counters.frames < lastFrame

theorem tallied_initial : Tallied {} where
  frames := rfl
  running _ := by decide
  finished _ h := by cases h
  inactive _ h := by cases h
  failed _ h := by cases h

/-- A process that has ended over a frame. -/
theorem tallied_failed {exit : Exit} (hframes : s.prog.counters.frames = s.samples.length)
    (hlt : s.prog.counters.frames < lastFrame) (hexited : s.prog.exited = some exit)
    (hfailure : exit.Failure) : Tallied s where
  frames := hframes
  running h := by cases hexited.symm.trans h
  finished report h := by
    cases hexited.symm.trans h
    exact hfailure.elim
  inactive report h := by
    cases hexited.symm.trans h
    exact hfailure.elim
  failed _ _ _ := hlt

theorem tallied_running (hframes : s.prog.counters.frames = s.samples.length)
    (hlt : s.prog.counters.frames < lastFrame) (hnone : s.prog.exited = none) : Tallied s where
  frames := hframes
  running _ := hlt
  finished _ h := by cases hnone.symm.trans h
  inactive _ h := by cases hnone.symm.trans h
  failed _ h := by cases hnone.symm.trans h

theorem Tallied.step (h : Tallied s) (hs : LatencySender.step base mem s e = some s') :
    Tallied s' := by
  obtain ⟨hnone, hcounted⟩ := counted_of_step hs
  have hlt := h.running hnone
  cases hcounted with
  | deliver counters monitor samples exited =>
    rcases exited with exited | exited
    · exact tallied_running (by rw [counters, samples, h.frames]) (counters ▸ hlt) exited
    · exact tallied_failed (by rw [counters, samples, h.frames]) (counters ▸ hlt) exited trivial
  | refuse failure exited counters samples =>
    exact tallied_failed (by rw [counters, samples, h.frames]) (counters ▸ hlt) exited failure
  | receive frames samples monitor exited =>
    have hframes : s'.prog.counters.frames = s'.samples.length := by
      rw [frames, samples, List.length_append, h.frames]
      rfl
    split_ifs at exited with hlast
    · refine ⟨hframes, fun hrun => ?_, fun report hreport => ?_, fun report hreport => ?_,
        fun exit hexit hfailure => ?_⟩
      · cases exited.symm.trans hrun
      · cases exited.symm.trans hreport
        exact ⟨frames.trans hlast, rfl⟩
      · cases exited.symm.trans hreport
      · cases exited.symm.trans hexit
        exact hfailure.elim
    · exact tallied_running hframes (by omega) exited
  | lose prog samples =>
    exact tallied_running (by rw [prog, samples, h.frames]) (prog ▸ hlt) (prog ▸ hnone)
  | lapse seen prog samples =>
    refine ⟨by rw [prog, samples, ← h.frames], fun hrun => ?_, fun report hreport => ?_,
      fun report hreport => ?_, fun exit hexit hfailure => ?_⟩
    · rw [prog] at hrun
      cases hrun
    · rw [prog] at hreport
      cases hreport
    · rw [prog] at hreport ⊢
      cases hreport
      exact ⟨hlt, rfl⟩
    · rw [prog] at hexit
      cases hexit
      exact hfailure.elim
  | look monitor fresh prog samples =>
    exact tallied_running (by rw [prog, samples, ← h.frames]) (by rw [prog]; exact hlt)
      (by rw [prog]; exact hnone)

/-- The monitor ends the process when its copy is the counter, and no other step does so. -/
theorem Counted.inactive_iff (h : Counted s e s') (hnone : s.prog.exited = none) :
    Inactive s' ↔ signal e = some .check ∧ s.prog.monitor = some s.prog.counters.frames := by
  unfold Inactive
  cases h with
  | deliver counters monitor samples exited =>
    rcases exited with exited | exited <;> simp [exited, signal]
  | refuse failure exited counters samples =>
    refine iff_of_false ?_ (by simp [signal])
    rintro ⟨report, hreport⟩
    cases exited.symm.trans hreport
    exact failure.elim
  | receive frames samples monitor exited =>
    rw [exited]
    split_ifs <;> simp [signal]
  | lose prog samples => simp [prog, hnone, signal]
  | lapse seen prog samples => simp [prog, signal, seen]
  | look monitor fresh prog samples => simp [prog, hnone, signal, monitor, fresh]

/-- The monitor is a watch over the counter. -/
def watch (base : Nat) (mem : List UInt8) :
    CounterWatch (step base mem) signal (fun s => s.prog.exited = none) Inactive
      (fun s => s.prog.counters.frames) (fun s => s.prog.monitor) where
  Inv := Tallied
  inv_step h hs := h.step hs
  count_lt h hnone := Nat.lt_trans (h.running hnone) (by decide)
  running_step hs := (counted_of_step hs).1
  expired_stops := by
    rintro s ⟨report, h⟩ hnone
    cases h.symm.trans hnone
  expired_step hs := (counted_of_step hs).2.inactive_iff (counted_of_step hs).1
  arrival hs hrun' hsignal := by
    cases (counted_of_step hs).2 with
    | refuse failure exited counters samples => cases exited.symm.trans hrun'
    | receive frames samples monitor exited => exact ⟨frames, monitor⟩
    | deliver | lose | lapse | look => cases hsignal
  check hs hrun' hsignal := by
    cases (counted_of_step hs).2 with
    | lapse seen prog samples =>
      rw [prog] at hrun'
      cases hrun'
    | look monitor fresh prog samples => exact ⟨by rw [prog], by rw [prog]⟩
    | deliver | refuse | receive | lose => cases hsignal
  other hs _ hsignal := by
    cases (counted_of_step hs).2 with
    | deliver counters monitor samples exited => exact ⟨by rw [counters], monitor⟩
    | lose prog samples => exact ⟨by rw [prog], by rw [prog]⟩
    | refuse | receive | lapse | look => cases hsignal

theorem Tallied.finished_iff (h : Tallied s) :
    Finished s ↔ s.prog.counters.frames = lastFrame := by
  unfold Finished
  cases hexited : s.prog.exited with
  | none => exact iff_of_false (by simp) (h.running hexited).ne
  | some exit =>
    cases exit with
    | finished report => exact iff_of_true ⟨report, rfl⟩ (h.finished report hexited).1
    | inactive report => exact iff_of_false (by simp) (h.inactive report hexited).1.ne
    | sizeInUse | notFound | sizeMismatch =>
      exact iff_of_false (by simp) (h.failed _ hexited trivial).ne

theorem Tallied.frames_le (h : Tallied s) : s.prog.counters.frames ≤ lastFrame := by
  cases hexited : s.prog.exited with
  | none => exact (h.running hexited).le
  | some exit =>
    cases exit with
    | finished report => exact (h.finished report hexited).1.le
    | inactive report => exact (h.inactive report hexited).1.le
    | sizeInUse | notFound | sizeMismatch => exact (h.failed _ hexited trivial).le

end Steps

end LatencySender

end RtpBenchmarks.Live555
