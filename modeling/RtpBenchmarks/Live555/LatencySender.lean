import RtpBenchmarks.Foundation.KeyedMap
import RtpBenchmarks.Foundation.Runs
import RtpBenchmarks.Foundation.Scalars
import RtpBenchmarks.Latency.Report
import RtpBenchmarks.Live555.Nals

set_option autoImplicit false

/-!
# Live555 latency sender (`live555/latency_sender.cc`)

`deliverFrame` hands the next NAL unit of the file to the RTP sink and stores its send
time in the map `timestamps` under its size; the receiver echoes the frames, and
`afterGettingFrame` takes the send time of a frame that comes back from the map and
counts the latency.  Frames carry no other identification than their size.

The system is a step function: the calls of the two functions, which one thread makes
one after the other, a network that holds the frames in flight and delivers them in any
order or loses them, and the thread that ends the process when nothing comes back.  The
frames in flight remember when they were sent, which no step of the program can see.

`Pending` relates the map to the frames that have been sent and not received.
-/

namespace RtpBenchmarks.Live555.LatencySender

open RtpBenchmarks.Foundation
open RtpBenchmarks.Latency (Report)
open scoped List

/-! ## The code -/

/-- `finfo`: when a frame was sent, and its size. -/
structure Finfo where
  first : Int
  second : Nat
  deriving DecidableEq, Repr

/-- The globals that count the frames. -/
structure Counters where
  frames : Nat := 0
  nintras : Nat := 0
  ninters : Nat := 0
  intraTotal : Nat := 0
  interTotal : Nat := 0
  frameTotal : Nat := 0
  deriving DecidableEq, Repr

/-- How the process exits, with what it prints. -/
inductive Exit where
  | sizeInUse
  | notFound (frame key : Nat)
  | sizeMismatch (stored frameSize : Nat)
  | inactive (report : Report)
  | finished (report : Report)
  deriving DecidableEq, Repr

/-- The globals.  `monitor` is the `prev_frames` of `thread_func` once it runs. -/
structure State where
  nal : NalState := {}
  current : Nat := 0
  counters : Counters := {}
  timestamps : AList (fun _ : Nat => Finfo) := ∅
  monitor : Option Nat := none
  exited : Option Exit := none
  deriving DecidableEq

/-- `H265LatencyFramedSource::deliverFrame`, with the frame that is handed on.  Between
the search for the NAL unit and the recording of the time it sleeps to hold the frame
rate. -/
def deliverFrame (base : Nat) (mem : List UInt8) (s : State) (awaitingData : Bool)
    (fMaxSize : UInt32) (now : Int) : Except MemFault (State × Option (List UInt8)) :=
  if awaitingData then do
    let (nalState, size, data) ← findNextNal base mem s.nal
    let s := { s with nal := nalState }
    match data with
    | none => return (s, none)
    | some data =>
      if size = 0 then
        return (s, none)
      let s := { s with current := if 1500 < size then s.current + 1 else s.current }
      if size ∈ s.timestamps then
        return ({ s with exited := some .sizeInUse }, none)
      let s := { s with timestamps := s.timestamps.insert size { first := now, second := size } }
      let newFrameSize := size % 2 ^ 32
      let fFrameSize := if fMaxSize.toNat < newFrameSize then fMaxSize.toNat else newFrameSize
      let fTo ← loadBytes mem data fFrameSize
      return (s, some fTo)
  else
    return (s, none)

/-- The type in the header of a NAL unit. -/
def nalType (b : UInt8) : UInt8 :=
  (b >>> 1) &&& 0x3f

/-- The updates of the counters for a frame. -/
def Counters.count (c : Counters) (nalType : UInt8) (diff : Nat) : Counters :=
  let c :=
    if nalType = 19 then
      { c with
        nintras := c.nintras + 1
        intraTotal := (c.intraTotal + diff / 1000) % 2 ^ 64
        frameTotal := (c.frameTotal + diff / 1000) % 2 ^ 64 }
    else if nalType = 1 then
      { c with
        ninters := c.ninters + 1
        interTotal := (c.interTotal + diff / 1000) % 2 ^ 64
        frameTotal := (c.frameTotal + diff / 1000) % 2 ^ 64 }
    else c
  { c with frames := c.frames + 1 }

/-- What is printed at both exits. -/
def Counters.report (c : Counters) : Report where
  frames := c.frames
  intra := { total := c.intraTotal, count := c.nintras }
  inter := { total := c.interTotal, count := c.ninters }
  avg := { total := c.frameTotal, count := c.frames }

/-- The monitor starts with the first frame, with `prev_frames` at `UINT_MAX`. -/
def startMonitor (s : State) : State :=
  if s.counters.frames = 0 then { s with monitor := some (2 ^ 32 - 1) } else s

@[simp] theorem startMonitor_timestamps (s : State) :
    (startMonitor s).timestamps = s.timestamps := by
  unfold startMonitor
  split <;> rfl

/-- `RTPSink_::afterGettingFrame` for a frame in `fReceiveBuffer`, with the latency that it
computes. -/
def afterGettingFrame (s : State) (frame : List UInt8) (now : Int) : State × Option Nat :=
  let s := startMonitor s
  let key := frame.length
  match s.timestamps.lookup key with
  | none => ({ s with exited := some (.notFound (s.counters.frames + 1) key) }, none)
  | some info =>
    if info.second = key then
      let diff := microseconds (now - info.first)
      let s :=
        { s with
          timestamps := s.timestamps.erase key
          counters := s.counters.count (nalType (frame.headD 0)) diff }
      if s.counters.frames = 601 then
        ({ s with exited := some (.finished s.counters.report) }, some diff)
      else (s, some diff)
    else ({ s with exited := some (.sizeMismatch info.second key) }, none)

/-- One round of `thread_func`. -/
def threadFunc (s : State) : Option State :=
  match s.monitor with
  | none => none
  | some prevFrames =>
    if prevFrames = s.counters.frames then
      some { s with exited := some (.inactive s.counters.report) }
    else some { s with monitor := some (s.counters.frames % 2 ^ 32) }

/-! ## The system -/

/-- A frame on the network, and when it was sent. -/
structure Sent where
  payload : List UInt8
  sent : Int
  deriving DecidableEq, Repr

/-- A latency that has been computed for a frame, at the time it was received. -/
structure Sample where
  frame : Sent
  received : Int
  diff : Nat
  deriving DecidableEq, Repr

/-- The program, the frames on the network and those lost, and the latencies so far. -/
structure System where
  prog : State := {}
  inFlight : List Sent := []
  lost : List Sent := []
  samples : List Sample := []
  deriving DecidableEq

/-- An atomic step: a call of `deliverFrame`, the arrival or the loss of a frame in
flight, or a round of the monitor. -/
inductive Event where
  | deliver (awaitingData : Bool) (fMaxSize : UInt32) (now : Int)
  | receive (i : Nat) (now : Int)
  | lose (i : Nat)
  | monitor
  deriving DecidableEq, Repr

/-- A step of the running process; `none` where it cannot be taken. -/
def step (base : Nat) (mem : List UInt8) (s : System) (e : Event) : Option System :=
  if s.prog.exited.isSome then none
  else
    match e with
    | .deliver awaitingData fMaxSize now =>
      match deliverFrame base mem s.prog awaitingData fMaxSize now with
      | .error _ => none
      | .ok (prog, none) => some { s with prog }
      | .ok (prog, some payload) =>
        some { s with prog, inFlight := { payload, sent := now } :: s.inFlight }
    | .receive i now =>
      match s.inFlight[i]? with
      | none => none
      | some frame =>
        let (prog, diff) := afterGettingFrame s.prog frame.payload now
        some
          { s with
            prog
            inFlight := s.inFlight.eraseIdx i
            samples := s.samples ++ (diff.map ({ frame, received := now, diff := · })).toList }
    | .lose i =>
      match s.inFlight[i]? with
      | none => none
      | some frame =>
        some { s with inFlight := s.inFlight.eraseIdx i, lost := frame :: s.lost }
    | .monitor => (threadFunc s.prog).map fun prog => { s with prog }

/-- The frames sent and not received. -/
def System.pending (s : System) : List Sent :=
  s.inFlight ++ s.lost

/-! ## What a call does -/

/-- The entry of a frame. -/
def Sent.entry (f : Sent) : (_ : Nat) × Finfo :=
  ⟨f.payload.length, { first := f.sent, second := f.payload.length }⟩

/-- A call of `deliverFrame` hands on no frame and leaves the map alone, or it records the
size of the NAL unit, which was not in use, and hands on as much of it as there is room
for. -/
theorem deliverFrame_cases {base : Nat} {mem : List UInt8} {s s' : State}
    {awaitingData : Bool} {fMaxSize : UInt32} {now : Int} {sent : Option (List UInt8)}
    (h : deliverFrame base mem s awaitingData fMaxSize now = .ok (s', sent)) :
    (sent = none ∧ s'.timestamps = s.timestamps) ∨
    ∃ nalState size data payload,
      findNextNal base mem s.nal = .ok (nalState, size, some data) ∧ size ∉ s.timestamps ∧
      s'.timestamps = s.timestamps.insert size { first := now, second := size } ∧
      sent = some payload ∧ payload.length = min fMaxSize.toNat (size % 2 ^ 32) := by
  cases awaitingData with
  | false =>
    cases h
    exact .inl ⟨rfl, rfl⟩
  | true =>
    simp only [deliverFrame, if_true, bind_eq_ok_iff] at h
    obtain ⟨⟨nalState, size, data⟩, hnal, h⟩ := h
    cases data with
    | none =>
      cases h
      exact .inl ⟨rfl, rfl⟩
    | some data =>
      dsimp only at h
      by_cases hsize : size = 0
      · rw [if_pos hsize] at h
        cases h
        exact .inl ⟨rfl, rfl⟩
      rw [if_neg hsize] at h
      by_cases huse : size ∈ s.timestamps
      · rw [if_pos huse] at h
        cases h
        exact .inl ⟨rfl, rfl⟩
      · rw [if_neg huse] at h
        obtain ⟨payload, hload, h⟩ := bind_eq_ok_iff.mp h
        cases h
        have hlen : payload.length = min fMaxSize.toNat (size % 2 ^ 32) := by
          rw [length_of_loadBytes hload]
          split_ifs <;> omega
        exact .inr ⟨nalState, size, data, payload, hnal, huse, rfl, rfl, hlen⟩

/-- A frame whose entry is in the map is counted with the latency since the time in the
entry, and the entry is erased. -/
theorem afterGettingFrame_of_lookup {s : State} {frame : Sent}
    (h : s.timestamps.lookup frame.entry.1 = some frame.entry.2) (now : Int) :
    ∃ s', afterGettingFrame s frame.payload now =
        (s', some (microseconds (now - frame.sent))) ∧
      s'.timestamps = s.timestamps.erase frame.entry.1 := by
  have hlookup : (startMonitor s).timestamps.lookup frame.payload.length =
      some { first := frame.sent, second := frame.payload.length } := by
    rw [startMonitor_timestamps]
    exact h
  simp only [afterGettingFrame, hlookup, if_true]
  split_ifs
  · exact ⟨_, rfl, by simp [Sent.entry]⟩
  · exact ⟨_, rfl, by simp [Sent.entry]⟩

theorem threadFunc_timestamps {s s' : State} (h : threadFunc s = some s') :
    s'.timestamps = s.timestamps := by
  unfold threadFunc at h
  split at h
  · cases h
  · split_ifs at h <;> cases h <;> rfl

/-! ## The frames that are pending -/

/-- A frame that is handed on is not truncated. -/
def Fits (base : Nat) (mem : List UInt8) (s : System) : Event → Prop
  | .deliver _ fMaxSize _ =>
    ∀ nalState size data, findNextNal base mem s.prog.nal = .ok (nalState, size, some data) →
      size ≤ fMaxSize.toNat
  | .receive _ _ | .lose _ | .monitor => True

/-- The map has exactly the entries of the frames that are sent and not received, and
every latency is that of its frame. -/
structure Pending (s : System) : Prop where
  tracks : Tracks Sent.entry s.prog.timestamps s.pending
  latency : ∀ x ∈ s.samples, x.diff = microseconds (x.received - x.frame.sent)

theorem pending_initial : Pending {} :=
  ⟨tracks_empty _, by simp⟩

/-- The frames pending with the one at an index of those in flight first. -/
theorem pending_perm {s : System} {i : Nat} {frame : Sent} (h : s.inFlight[i]? = some frame) :
    s.pending ~ frame :: (s.inFlight.eraseIdx i ++ s.lost) := by
  obtain ⟨hi, rfl⟩ := List.getElem?_eq_some_iff.mp h
  exact (List.getElem_cons_eraseIdx_perm hi).symm.append_right s.lost

theorem Pending.step {base : Nat} {mem : List UInt8} {s s' : System} {e : Event}
    (h : Pending s) (hfits : Fits base mem s e) (hs : step base mem s e = some s') :
    Pending s' := by
  unfold LatencySender.step at hs
  rw [Option.ite_none_left_eq_some] at hs
  obtain ⟨-, hs⟩ := hs
  cases e with
  | deliver awaitingData fMaxSize now =>
    dsimp only at hs
    split at hs
    · cases hs
    · next prog hcall =>
      cases hs
      obtain ⟨-, hsame⟩ | ⟨_, _, _, _, _, _, _, hsent, _⟩ := deliverFrame_cases hcall
      · exact ⟨hsame ▸ h.tracks, h.latency⟩
      · cases hsent
    · next prog payload hcall =>
      cases hs
      obtain ⟨hsent, -⟩ | ⟨nalState, size, data, payload', hnal, hnew, hmap, hsent, hlen⟩ :=
        deliverFrame_cases hcall
      · cases hsent
      cases hsent
      have hroom := hfits nalState size data hnal
      have hbound := fMaxSize.toNat_lt
      obtain rfl : payload.length = size := by omega
      refine ⟨?_, h.latency⟩
      rw [hmap]
      exact Tracks.insert (a := ({ payload, sent := now } : Sent)) h.tracks hnew
  | receive i now =>
    dsimp only at hs
    split at hs
    · cases hs
    · next frame hframe =>
      have hperm := pending_perm hframe
      have hlookup := h.tracks.lookup_of_mem (hperm.mem_iff.mpr List.mem_cons_self)
      obtain ⟨prog, hcall, hmap⟩ := afterGettingFrame_of_lookup hlookup now
      rw [hcall] at hs
      cases hs
      constructor
      · rw [hmap]
        exact (h.tracks.perm hperm).erase
      · intro x hx
        rcases List.mem_append.mp hx with hx | hx
        · exact h.latency x hx
        · obtain rfl := List.mem_singleton.mp hx
          rfl
  | lose i =>
    dsimp only at hs
    split at hs
    · cases hs
    · next frame hframe =>
      cases hs
      refine ⟨h.tracks.perm ?_, h.latency⟩
      exact (pending_perm hframe).trans List.perm_middle.symm
  | monitor =>
    obtain ⟨prog, hcall, rfl⟩ := Option.map_eq_some_iff.mp hs
    exact ⟨threadFunc_timestamps hcall ▸ h.tracks, h.latency⟩

/-! ## No call faults -/

/-- A call of `deliverFrame` reads inside the file only. -/
theorem deliverFrame_ok {mem : List UInt8} {s : State} (h : s.nal.Ready mem) (base : Nat)
    (awaitingData : Bool) (fMaxSize : UInt32) (now : Int) :
    ∃ s' sent, deliverFrame base mem s awaitingData fMaxSize now = .ok (s', sent) ∧
      s'.nal.Ready mem := by
  cases awaitingData with
  | false => exact ⟨s, none, rfl, h⟩
  | true =>
    obtain ⟨nalState, size, data, hnal, hready, hinside⟩ := h.findNextNalWith 4 base
    have hnal' : findNextNal base mem s.nal = .ok (nalState, size, data) := hnal
    simp only [deliverFrame, if_true, hnal', ok_bind]
    cases data with
    | none => exact ⟨_, _, rfl, hready⟩
    | some data =>
      dsimp only
      by_cases hsize : size = 0
      · rw [if_pos hsize]
        exact ⟨_, _, rfl, hready⟩
      rw [if_neg hsize]
      by_cases huse : size ∈ s.timestamps
      · rw [if_pos huse]
        exact ⟨_, _, rfl, hready⟩
      · have hle := hinside data rfl
        have hmod := Nat.mod_le size (2 ^ 32)
        rw [if_neg huse, loadBytes_of_le (by split_ifs <;> omega)]
        exact ⟨_, _, rfl, hready⟩

theorem afterGettingFrame_nal (s : State) (frame : List UInt8) (now : Int) :
    (afterGettingFrame s frame now).1.nal = s.nal := by
  have hmonitor : (startMonitor s).nal = s.nal := by
    unfold startMonitor
    split <;> rfl
  simp only [afterGettingFrame]
  split
  · exact hmonitor
  · split_ifs <;> exact hmonitor

theorem threadFunc_nal {s s' : State} (h : threadFunc s = some s') : s'.nal = s.nal := by
  unfold threadFunc at h
  split at h
  · cases h
  · split_ifs at h <;> cases h <;> rfl

/-- In every run the next call of `deliverFrame` does not fault. -/
theorem ready_of_run {base : Nat} {mem : List UInt8} {evs : List Event} {s : System}
    (hrun : Run (step base mem) {} evs s) : s.prog.nal.Ready mem := by
  refine Run.invariant (I := fun _ s => s.prog.nal.Ready mem) (.inl rfl) ?_ hrun
  intro done mid e mid' _ h hs
  unfold step at hs
  rw [Option.ite_none_left_eq_some] at hs
  obtain ⟨-, hs⟩ := hs
  cases e with
  | deliver awaitingData fMaxSize now =>
    obtain ⟨prog, sent, hcall, hready⟩ := deliverFrame_ok h base awaitingData fMaxSize now
    cases sent <;>
      · simp only [hcall] at hs
        cases hs
        exact hready
  | receive i now =>
    dsimp only at hs
    split at hs <;> cases hs
    exact (afterGettingFrame_nal mid.prog _ now).symm ▸ h
  | lose i =>
    dsimp only at hs
    split at hs <;> cases hs
    exact h
  | monitor =>
    obtain ⟨prog, hcall, rfl⟩ := Option.map_eq_some_iff.mp hs
    exact (threadFunc_nal hcall).symm ▸ h

/-- Where there is room for the whole file no frame is truncated. -/
theorem fits_of_le {base : Nat} {mem : List UInt8} {evs : List Event}
    (hroom : ∀ e ∈ evs, ∀ awaitingData fMaxSize now,
      e = .deliver awaitingData fMaxSize now → mem.length ≤ fMaxSize.toNat) :
    EveryStep (step base mem) (fun _ s e => Fits base mem s e) {} evs := by
  intro done e rest mid hevs hmid
  cases e with
  | deliver awaitingData fMaxSize now =>
    intro nalState size data hnal
    obtain ⟨st', size', data', hnext, -, hinside⟩ := (ready_of_run hmid).findNextNalWith 4 base
    have hnal' : findNextNalWith 4 base mem mid.prog.nal = .ok (nalState, size, some data) :=
      hnal
    rw [hnal'] at hnext
    cases hnext
    have hle := hroom (.deliver awaitingData fMaxSize now) (by simp [hevs]) _ _ _ rfl
    have hlt := hinside data rfl
    omega
  | receive _ _ | lose _ | monitor => trivial

/-- In every run in which no frame is truncated, the map has exactly one entry for each
frame sent and not received, their sizes differ, and every latency is the time from the
sending of its frame to its reception. -/
theorem latencySender_pending {base : Nat} {mem : List UInt8} {evs : List Event}
    {s : System} (hrun : Run (step base mem) {} evs s)
    (hfits : EveryStep (step base mem) (fun _ s e => Fits base mem s e) {} evs) :
    s.prog.timestamps.entries ~ s.pending.map Sent.entry ∧
    (s.pending.map (·.payload.length)).Nodup ∧
    ∀ x ∈ s.samples, x.diff = microseconds (x.received - x.frame.sent) := by
  have h : Pending s := Run.preserves_of_everyStep hrun pending_initial hfits
    fun done mid e mid' hmid hfit hs => hmid.step hfit hs
  exact ⟨h.tracks, h.tracks.keys_nodup, h.latency⟩

/-- Three frames, of which the first is lost and the third comes back before the second. -/
theorem latencySender_pending_three :
    ∃ s, Run (step 0 [0, 0, 1, 38, 0, 0, 1, 2, 5, 0, 0, 1, 2, 5, 7]) {}
        [.deliver true 1500 0, .deliver true 1500 10000, .lose 1, .deliver true 1500 20000,
          .receive 0 60000, .receive 0 90000] s ∧
      s.prog.timestamps.entries ~ s.pending.map Sent.entry ∧
      (s.pending.map (·.payload.length)).Nodup ∧
      ∀ x ∈ s.samples, x.diff = microseconds (x.received - x.frame.sent) := by
  have hrun : Run (step 0 [0, 0, 1, 38, 0, 0, 1, 2, 5, 0, 0, 1, 2, 5, 7]) {}
      [.deliver true 1500 0, .deliver true 1500 10000, .lose 1, .deliver true 1500 20000,
        .receive 0 60000, .receive 0 90000] _ :=
    run_get (by decide +kernel)
  refine ⟨_, hrun, latencySender_pending hrun (fits_of_le ?_)⟩
  intro e he awaitingData fMaxSize now h
  subst h
  simp only [List.mem_cons, Event.deliver.injEq, reduceCtorEq, List.not_mem_nil, or_false,
    false_or] at he
  obtain ⟨-, rfl, -⟩ | ⟨-, rfl, -⟩ | ⟨-, rfl, -⟩ := he <;> decide

end RtpBenchmarks.Live555.LatencySender
