import Mathlib.Data.List.TakeDrop
import RtpBenchmarks.Foundation.Bytes
import RtpBenchmarks.Foundation.Runs

set_option autoImplicit false

/-!
# Live555 latency receiver (`live555/latency_receiver.cc`)

Each received frame is echoed: `afterGettingFrame` leaves it in `nal_ptr` and `nal_size`,
unlocks `lat_mtx` and calls `deliverFrame`, which hands it to the outgoing sink if that is
waiting and the mutex can be taken.  A request of the sink calls `deliverFrame` too.

The mutex is a flag, unlocked while a frame waits.  `deliverFrame` returns before it tries
the mutex when the sink is not waiting; the frame then stays, and the next one takes its
place.
-/

namespace RtpBenchmarks.Live555.LatencyReceiver

open RtpBenchmarks.Foundation

/-! ## The code -/

/-- `BUFFER_SIZE`. -/
def bufferSize : Nat := 40 * 1000 * 1000

/-- A frame that the RTP source has written to `fReceiveBuffer`. -/
abbrev Frame : Type := { data : List UInt8 // data.length ≤ bufferSize }

/-- What is printed at an exit. -/
structure Report where
  bytes : Nat
  frames : Nat
  deriving DecidableEq, Repr

/-- How the process exits. -/
inductive Exit where
  | inactive (report : Report)
  | finished (report : Report)
  deriving DecidableEq, Repr

/-- The globals, and what the outgoing sink waits for.  `nalPtr` is what `nal_ptr` points
to; `monitor` is the `prev_frames` of `thread_func` once it runs.  `received` and `handed`
record the frames; `misused` tells whether `lat_mtx` has been unlocked while it was not
locked. -/
structure State where
  frames : Nat := 0
  bytes : Nat := 0
  nalPtr : Option (List UInt8) := none
  nalSize : Nat := 0
  locked : Bool := true
  awaitingData : Bool := false
  fMaxSize : UInt32 := 0
  monitor : Option Nat := none
  exited : Option Exit := none
  received : List (List UInt8) := []
  handed : List (List UInt8) := []
  misused : Bool := false
  deriving DecidableEq, Repr

def State.report (s : State) : Report where
  bytes := s.bytes
  frames := s.frames

/-- `lat_mtx.unlock()`. -/
def State.unlock (s : State) : State :=
  { s with locked := false, misused := s.misused || !s.locked }

/-- `H265FramedSource::deliverFrame`. -/
def deliverFrame (s : State) : Except MemFault State :=
  if s.awaitingData then
    if s.locked then return s
    else do
      let s := { s with locked := true }
      let newFrameSize := s.nalSize % 2 ^ 32
      let s := { s with bytes := (s.bytes + newFrameSize) % 2 ^ 64 }
      let fFrameSize := if s.fMaxSize.toNat < newFrameSize then s.fMaxSize.toNat else newFrameSize
      let fTo ← loadThrough s.nalPtr fFrameSize
      return { s with handed := s.handed ++ [fTo], awaitingData := false }
  else return s

/-- The monitor starts with the first frame, with `prev_frames` at `UINT_MAX`. -/
def startMonitor (s : State) : State :=
  if s.frames = 0 then { s with monitor := some (2 ^ 32 - 1) } else s

/-- `++frames == 602`, and the exit. -/
def countFrame (s : State) : State :=
  let s := { s with frames := s.frames + 1 }
  if s.frames = 602 then { s with exited := some (.finished s.report) } else s

/-- `RTPLatencySink::afterGettingFrame`. -/
def afterGettingFrame (s : State) (frame : Frame) : Except MemFault State := do
  let s := startMonitor { s with received := s.received ++ [frame.val] }
  let s := { s with nalPtr := some frame.val, nalSize := frame.val.length }
  let s ← deliverFrame s.unlock
  return countFrame s

/-- `getNextFrame`, which notes that the sink waits, and `H265FramedSource::doGetNextFrame`. -/
def doGetNextFrame (s : State) (fMaxSize : UInt32) : Except MemFault State :=
  deliverFrame { s with awaitingData := true, fMaxSize }

/-- One round of `thread_func`. -/
def threadFunc (s : State) : Option State :=
  match s.monitor with
  | none => none
  | some prevFrames =>
    if prevFrames = s.frames then some { s with exited := some (.inactive s.report) }
    else some { s with monitor := some (s.frames % 2 ^ 32) }

/-! ## The system -/

/-- A frame is received, the outgoing sink asks for one, or the monitor wakes up. -/
inductive Event where
  | receive (frame : Frame)
  | request (fMaxSize : UInt32)
  | monitor
  deriving DecidableEq, Repr

/-- A step of the running process; `none` where it cannot be taken. -/
def step (s : State) (e : Event) : Option State :=
  if s.exited.isSome then none
  else
    match e with
    | .receive frame => (afterGettingFrame s frame).toOption
    | .request fMaxSize => (doGetNextFrame s fMaxSize).toOption
    | .monitor => threadFunc s

/-- The frames handed on are the first of those received, and the mutex has not been
unlocked while it was not locked. -/
def State.Faithful (s : State) : Prop :=
  s.handed <+: s.received ∧ s.misused = false

/-- No frame waits when one is received, and a frame that is handed on fits the buffer of
the sink. -/
def Clean (s : State) : Event → Prop
  | .receive frame =>
    s.locked = true ∧ (s.awaitingData = true → frame.val.length ≤ s.fMaxSize.toNat)
  | .request fMaxSize => s.locked = false → s.nalSize ≤ fMaxSize.toNat
  | .monitor => True

instance (s : State) : (e : Event) → Decidable (Clean s e)
  | .receive frame =>
    inferInstanceAs (Decidable
      (s.locked = true ∧ (s.awaitingData = true → frame.val.length ≤ s.fMaxSize.toNat)))
  | .request fMaxSize =>
    inferInstanceAs (Decidable (s.locked = false → s.nalSize ≤ fMaxSize.toNat))
  | .monitor => isTrue trivial

/-! ## The frame that waits -/

/-- While the mutex is locked no frame waits; else the last one received does. -/
structure Slot (s : State) : Prop where
  empty : s.locked = true → s.handed.length = s.received.length
  full : s.locked = false → ∃ (front : List (List UInt8)) (frame : Frame),
    s.received = front ++ [frame.val] ∧ s.handed.length = front.length ∧
      s.nalPtr = some frame.val ∧ s.nalSize = frame.val.length

section Steps

variable {s s' : State} {e : Event} {front : List (List UInt8)} {frame : Frame}

theorem deliverFrame_of_locked (h : s.locked = true) : deliverFrame s = .ok s := by
  unfold deliverFrame
  rw [if_pos h]
  split_ifs <;> rfl

theorem deliverFrame_of_idle (h : s.awaitingData = false) : deliverFrame s = .ok s := by
  unfold deliverFrame
  rw [if_neg (by simp [h])]
  rfl

/-- The frame is handed on, cut to the buffer of the sink. -/
theorem deliverFrame_of_awaiting (hawait : s.awaitingData = true) (hlocked : s.locked = false)
    (hptr : s.nalPtr = some frame.val) (hsize : s.nalSize = frame.val.length) :
    deliverFrame s = .ok { s with
      locked := true
      bytes := (s.bytes + frame.val.length) % 2 ^ 64
      handed := s.handed ++ [frame.val.take s.fMaxSize.toNat]
      awaitingData := false } := by
  have hframe : frame.val.length ≤ 40 * 1000 * 1000 := frame.property
  have hmod : frame.val.length % 2 ^ 32 = frame.val.length := Nat.mod_eq_of_lt (by omega)
  unfold deliverFrame
  rw [if_pos hawait, if_neg (by simp [hlocked])]
  simp only [hsize, hmod, hptr, loadThrough]
  rw [loadBytes_of_le (by split_ifs <;> omega), List.drop_zero]
  split_ifs with hlt
  · rfl
  · rw [List.take_of_length_le (Nat.le_refl _), List.take_of_length_le (Nat.not_lt.mp hlt)]
    rfl

theorem deliverFrame_misused (h : deliverFrame s = .ok s') : s'.misused = s.misused := by
  unfold deliverFrame at h
  split_ifs at h
  · cases h
    rfl
  · simp only [bind_eq_ok_iff] at h
    obtain ⟨fTo, -, hfTo⟩ := h
    cases hfTo
    rfl
  · cases h
    rfl

/-- With all frames before it handed on, the last one is what is due next. -/
theorem append_take_prefix_iff {handed : List (List UInt8)} {data : List UInt8} {n : Nat}
    (hfront : handed <+: front ++ [data]) (hlength : handed.length = front.length) :
    handed ++ [data.take n] <+: front ++ [data] ↔ data.length ≤ n := by
  have hle : handed <+: front :=
    List.prefix_of_prefix_length_le hfront (List.prefix_append _ _) hlength.le
  obtain rfl := hle.eq_of_length hlength
  rw [List.prefix_append_right_inj, List.cons_prefix_cons, List.take_eq_self_iff]
  exact and_iff_left List.nil_prefix

/-- A frame that waits is handed on whole if and only if it fits. -/
theorem deliverFrame_faithful (hslot : Slot s) (hs : s.Faithful)
    (h : deliverFrame s = .ok s') :
    (s'.Faithful ↔ (s.locked = false → s.awaitingData = true → s.nalSize ≤ s.fMaxSize.toNat)) ∧
      Slot s' := by
  cases hlocked : s.locked with
  | true =>
    obtain rfl := Except.ok.inj ((deliverFrame_of_locked hlocked).symm.trans h)
    simp [hs, hslot]
  | false =>
    cases hawait : s.awaitingData with
    | false =>
      obtain rfl := Except.ok.inj ((deliverFrame_of_idle hawait).symm.trans h)
      simp [hs, hslot]
    | true =>
      obtain ⟨front, frame, hreceived, hhanded, hptr, hsize⟩ := hslot.full hlocked
      obtain rfl :=
        Except.ok.inj ((deliverFrame_of_awaiting hawait hlocked hptr hsize).symm.trans h)
      obtain ⟨hfront, hmisused⟩ := hs
      rw [hreceived] at hfront
      constructor
      · simp only [State.Faithful, hreceived, append_take_prefix_iff hfront hhanded, hmisused,
          hsize, and_true, true_imp_iff]
      · exact ⟨fun _ => by simp [hreceived, hhanded], by rintro ⟨⟩⟩

theorem startMonitor_eq (s : State) : ∃ m, startMonitor s = { s with monitor := m } := by
  unfold startMonitor
  split_ifs
  · exact ⟨_, rfl⟩
  · exact ⟨s.monitor, rfl⟩

theorem countFrame_eq (s : State) :
    ∃ n e, countFrame s = { s with frames := n, exited := e } := by
  unfold countFrame
  dsimp only
  split_ifs
  · exact ⟨_, _, rfl⟩
  · exact ⟨_, s.exited, rfl⟩

theorem afterGettingFrame_faithful (hslot : Slot s) (hs : s.Faithful)
    (h : afterGettingFrame s frame = .ok s') :
    (s'.Faithful ↔ Clean s (.receive frame)) ∧ (s'.Faithful → Slot s') := by
  obtain ⟨m, hm⟩ := startMonitor_eq { s with received := s.received ++ [frame.val] }
  unfold afterGettingFrame at h
  simp only [hm, bind_eq_ok_iff] at h
  obtain ⟨s₁, hdeliver, hcount⟩ := h
  obtain ⟨n, e, hn⟩ := countFrame_eq s₁
  rw [hn] at hcount
  obtain rfl := Except.ok.inj hcount
  cases hlocked : s.locked with
  | true =>
    have hwait : Slot (State.unlock { s with
        received := s.received ++ [frame.val]
        monitor := m
        nalPtr := some frame.val
        nalSize := frame.val.length }) :=
      ⟨by rintro ⟨⟩, fun _ => ⟨s.received, frame, rfl, hslot.empty hlocked, rfl, rfl⟩⟩
    obtain ⟨hiff, hslot'⟩ := deliverFrame_faithful hwait
      ⟨hs.1.trans (List.prefix_append _ _), by simp [State.unlock, hs.2, hlocked]⟩ hdeliver
    refine ⟨?_, fun _ => ⟨hslot'.empty, hslot'.full⟩⟩
    change s₁.Faithful ↔ _
    rw [hiff]
    simp [Clean, State.unlock, hlocked]
  | false =>
    -- the mutex is not locked, and is unlocked
    have hmisused : s₁.misused = true := by
      rw [deliverFrame_misused hdeliver]
      simp [State.unlock, hlocked]
    simp [State.Faithful, Clean, hmisused, hlocked]

theorem step_faithful (hslot : Slot s) (hs : s.Faithful) (h : step s e = some s') :
    (s'.Faithful ↔ Clean s e) ∧ (s'.Faithful → Slot s') := by
  unfold step at h
  split_ifs at h
  cases e with
  | receive frame => exact afterGettingFrame_faithful hslot hs (toOption_eq_some_iff.mp h)
  | request fMaxSize =>
    have hdeliver : deliverFrame { s with awaitingData := true, fMaxSize } = .ok s' :=
      toOption_eq_some_iff.mp h
    have hslot₁ : Slot { s with awaitingData := true, fMaxSize } := ⟨hslot.empty, hslot.full⟩
    obtain ⟨hiff, hslot'⟩ := deliverFrame_faithful hslot₁ hs hdeliver
    exact ⟨by simpa [Clean] using hiff, fun _ => hslot'⟩
  | monitor =>
    simp only [threadFunc] at h
    cases hm : s.monitor with
    | none => simp [hm] at h
    | some prevFrames =>
      rw [hm] at h
      dsimp only at h
      split_ifs at h
      all_goals
        obtain rfl := Option.some.inj h
        exact ⟨iff_of_true hs trivial, fun _ => ⟨hslot.empty, hslot.full⟩⟩

/-- An unlocked mutex stands for a frame in the buffer. -/
def Fetched (s : State) : Prop :=
  s.locked = false → ∃ frame : Frame, s.nalPtr = some frame.val ∧ s.nalSize = frame.val.length

theorem deliverFrame_ok (h : Fetched s) : ∃ s', deliverFrame s = .ok s' ∧ Fetched s' := by
  cases hlocked : s.locked with
  | true => exact ⟨s, deliverFrame_of_locked hlocked, h⟩
  | false =>
    cases hawait : s.awaitingData with
    | false => exact ⟨s, deliverFrame_of_idle hawait, h⟩
    | true =>
      obtain ⟨frame, hptr, hsize⟩ := h hlocked
      exact ⟨_, deliverFrame_of_awaiting hawait hlocked hptr hsize, by rintro ⟨⟩⟩

theorem afterGettingFrame_ok (s : State) (frame : Frame) :
    ∃ s', afterGettingFrame s frame = .ok s' ∧ Fetched s' := by
  let waiting := startMonitor { s with received := s.received ++ [frame.val] }
  have hwait : Fetched (State.unlock
      { waiting with nalPtr := some frame.val, nalSize := frame.val.length }) :=
    fun _ => ⟨frame, rfl, rfl⟩
  obtain ⟨s₁, hdeliver, h₁⟩ := deliverFrame_ok hwait
  obtain ⟨n, e, hn⟩ := countFrame_eq s₁
  refine ⟨countFrame s₁, ?_, ?_⟩
  · unfold afterGettingFrame
    dsimp only
    rw [hdeliver]
    rfl
  · rw [hn]
    exact h₁

theorem step_fetched (h : Fetched s) (hstep : step s e = some s') : Fetched s' := by
  unfold step at hstep
  split_ifs at hstep
  cases e with
  | receive frame =>
    obtain ⟨s₁, hcall, h₁⟩ := afterGettingFrame_ok s frame
    obtain rfl := Except.ok.inj (hcall.symm.trans (toOption_eq_some_iff.mp hstep))
    exact h₁
  | request fMaxSize =>
    have hwait : Fetched { s with awaitingData := true, fMaxSize } := h
    obtain ⟨s₁, hcall, h₁⟩ := deliverFrame_ok hwait
    obtain rfl := Except.ok.inj (hcall.symm.trans (toOption_eq_some_iff.mp hstep))
    exact h₁
  | monitor =>
    simp only [threadFunc] at hstep
    split at hstep
    · cases hstep
    · split_ifs at hstep
      all_goals
        obtain rfl := Option.some.inj hstep
        exact h

/-- While the process runs, frames and requests can come in any order. -/
theorem step_isSome {events : List Event} (hrun : Run step {} events s)
    (hexit : s.exited = none) (hevent : e ≠ .monitor) : (step s e).isSome := by
  have hfetched : Fetched s :=
    Run.invariant (I := fun _ s => Fetched s) (by rintro ⟨⟩)
      (fun _ _ _ _ _ h hstep => step_fetched h hstep) hrun
  unfold step
  rw [if_neg (by simp [hexit])]
  cases e with
  | receive frame =>
    obtain ⟨s₁, hcall, -⟩ := afterGettingFrame_ok s frame
    exact Option.isSome_of_eq_some (toOption_eq_some_iff.mpr hcall)
  | request fMaxSize =>
    have hwait : Fetched { s with awaitingData := true, fMaxSize } := hfetched
    obtain ⟨s₁, hcall, -⟩ := deliverFrame_ok hwait
    exact Option.isSome_of_eq_some (toOption_eq_some_iff.mpr hcall)
  | monitor => exact absurd rfl hevent

end Steps

/-! ## Any interleaving -/

/-- In every interleaving, the frames handed on are always a prefix of those received and
the mutex never unlocked while it is not locked, if and only if no frame is received while
another one waits and each fits the buffer it is handed to. -/
theorem faithful_iff {events : List Event} {s : State} (hrun : Run step {} events s) :
    EveryState step State.Faithful {} events ↔
      EveryStep step (fun _ s e => Clean s e) {} events := by
  have hslot : Slot {} := ⟨fun _ => rfl, by rintro ⟨⟩⟩
  refine everyState_iff_everyStep hrun hslot ⟨List.nil_prefix, rfl⟩ ?_
  intro mid e mid' hmid hfaithful hstep
  exact step_faithful hmid hfaithful hstep

/-- A frame of one byte. -/
def tiny (b : UInt8) : Frame :=
  ⟨[b], by simp [bufferSize]⟩

/-- Frames and requests that alternate. -/
theorem faithful_alternating :
    EveryState step State.Faithful {}
      [.request 60000, .receive (tiny 1), .request 60000, .receive (tiny 2)] :=
  (faithful_iff (run_get (by decide))).mpr (by decide)

/-- Two frames are received before the sink asks for one: the first is lost, and the mutex
unlocked while it is not locked. -/
theorem receive_overwrites :
    ∃ s, Run step {} [.receive (tiny 1), .receive (tiny 2), .request 60000] s ∧
      s.received = [[1], [2]] ∧ s.handed = [[2]] ∧ s.misused = true ∧ ¬ s.Faithful := by
  refine ⟨_, run_get (by decide), rfl, rfl, rfl, ?_⟩
  rintro ⟨-, ⟨⟩⟩

end RtpBenchmarks.Live555.LatencyReceiver
