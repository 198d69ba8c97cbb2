import RtpBenchmarks.Foundation.Link
import RtpBenchmarks.Foundation.Simulation
import RtpBenchmarks.Live555.Monitors

set_option autoImplicit false

/-!
# The Live555 latency test (`live555/latency_sender.cc`, `live555/latency_receiver.cc`)

The frames of the sender go to the receiver over one link, and what that hands to its outgoing sink
comes back over another.  Either link may reorder frames and lose some, and the receiver has room
for one frame only.

To the sender the receiver and both links are one network: `Simulated` relates a state of the test
to a state of the sender over a network that may reorder and lose frames.
-/

namespace RtpBenchmarks.Live555.Echo

open RtpBenchmarks.Foundation
open RtpBenchmarks.Live555.LatencyReceiver (Frame bufferSize)
open RtpBenchmarks.Live555.LatencySender (Sent)
open scoped List

/-! ## The system -/

/-- A latency that has been computed for a frame. -/
structure Sample where
  payload : List UInt8
  received : Int
  diff : Nat
  deriving DecidableEq, Repr

/-- Both programs, both links, the frames sent and the latencies so far. -/
structure State where
  sender : LatencySender.State := {}
  receiver : LatencyReceiver.State := {}
  there : Link (List UInt8) := {}
  back : Link (List UInt8) := {}
  sent : List Sent := []
  samples : List Sample := []
  deriving DecidableEq

/-- The sink of the sender asks for a frame, a frame arrives at the receiver, the outgoing sink of
the receiver asks for one, a frame arrives at the sender, a frame is lost, or a monitor wakes up.
A frame is given by its place on the link. -/
inductive Event where
  | deliver (awaitingData : Bool) (fMaxSize : UInt32) (now : Int)
  | echo (i : Nat)
  | request (fMaxSize : UInt32)
  | receive (i : Nat) (now : Int)
  | loseThere (i : Nat)
  | loseBack (i : Nat)
  | senderMonitor
  | receiverMonitor
  deriving DecidableEq, Repr

/-- What the RTP source writes to `fReceiveBuffer` of a frame. -/
def received (payload : List UInt8) : Frame :=
  ⟨payload.take bufferSize, List.length_take_le _ _⟩

/-- A step of the receiver; what it hands to its sink is sent. -/
def receiverStep (s : State) (e : LatencyReceiver.Event) : Option State := do
  let receiver ← LatencyReceiver.step s.receiver e
  some { s with receiver, back := s.back.send (receiver.handed.drop s.receiver.handed.length) }

/-- A step of the system; `none` where it cannot be taken. -/
def step (base : Nat) (mem : List UInt8) (s : State) : Event → Option State
  | .deliver awaitingData fMaxSize now =>
    if s.sender.exited.isSome then none
    else
      match LatencySender.deliverFrame base mem s.sender awaitingData fMaxSize now with
      | .error _ => none
      | .ok (sender, none) => some { s with sender }
      | .ok (sender, some payload) =>
        some { s with
          sender, there := s.there.send [payload], sent := { payload, sent := now } :: s.sent }
  | .echo i => do
    let (payload, there) ← s.there.deliver i
    receiverStep { s with there } (.receive (received payload))
  | .request fMaxSize => receiverStep s (.request fMaxSize)
  | .receive i now =>
    if s.sender.exited.isSome then none
    else do
      let (payload, back) ← s.back.deliver i
      let (sender, diff) := LatencySender.afterGettingFrame s.sender payload now
      some { s with
        sender, back
        samples := s.samples ++ (diff.map ({ payload, received := now, diff := · })).toList }
  | .loseThere i => (s.there.drop i).map fun there => { s with there }
  | .loseBack i => (s.back.drop i).map fun back => { s with back }
  | .senderMonitor =>
    if s.sender.exited.isSome then none
    else (LatencySender.threadFunc s.sender).map fun sender => { s with sender }
  | .receiverMonitor => receiverStep s .monitor

/-- No frame is truncated: by the sink of the sender, by the buffer of the receiver, or by its
outgoing sink. -/
def Whole (base : Nat) (mem : List UInt8) (s : State) : Event → Prop
  | .deliver _ fMaxSize _ =>
    ∀ r ∈ (LatencySender.findNextNal base mem s.sender.nal).toOption,
      r.2.2.isSome → r.2.1 ≤ fMaxSize.toNat
  | .echo i =>
    ∀ payload ∈ s.there.inFlight[i]?, payload.length ≤ bufferSize ∧
      (s.receiver.awaitingData = true → payload.length ≤ s.receiver.fMaxSize.toNat)
  | .request fMaxSize => s.receiver.locked = false → s.receiver.nalSize ≤ fMaxSize.toNat
  | .receive _ _ | .loseThere _ | .loseBack _ | .senderMonitor | .receiverMonitor => True

instance (base : Nat) (mem : List UInt8) (s : State) : (e : Event) → Decidable (Whole base mem s e)
  | .deliver _ fMaxSize _ => inferInstanceAs (Decidable
      (∀ r ∈ (LatencySender.findNextNal base mem s.sender.nal).toOption,
        r.2.2.isSome → r.2.1 ≤ fMaxSize.toNat))
  | .echo i => inferInstanceAs (Decidable
      (∀ payload ∈ s.there.inFlight[i]?, payload.length ≤ bufferSize ∧
        (s.receiver.awaitingData = true → payload.length ≤ s.receiver.fMaxSize.toNat)))
  | .request fMaxSize => inferInstanceAs (Decidable
      (s.receiver.locked = false → s.receiver.nalSize ≤ fMaxSize.toNat))
  | .receive _ _ | .loseThere _ | .loseBack _ | .senderMonitor | .receiverMonitor => isTrue trivial

/-- What the monitor of the sender sees. -/
def signal : Event → Option Signal
  | .receive _ _ => some .arrival
  | .senderMonitor => some .check
  | .deliver _ _ _ | .echo _ | .request _ | .loseThere _ | .loseBack _ | .receiverMonitor => none

/-! ## The receiver -/

section Receiver

open RtpBenchmarks.Live555.LatencyReceiver (Fetched deliverFrame startMonitor countFrame)

/-- The frame that waits in the receiver. -/
def waiting (r : LatencyReceiver.State) : List (List UInt8) :=
  if r.locked then [] else r.nalPtr.toList

variable {r r' : LatencyReceiver.State}

/-- The frame that waits goes on waiting, or is handed on. -/
structure Passes (r r' : LatencyReceiver.State) (frames : List (List UInt8)) : Prop where
  fetched : Fetched r'
  split : r'.handed.drop r.handed.length ++ waiting r' = frames

theorem deliverFrame_passes (hfetched : Fetched r)
    (hroom : r.locked = false → r.awaitingData = true → r.nalSize ≤ r.fMaxSize.toNat)
    (h : deliverFrame r = .ok r') : Passes r r' (waiting r) := by
  cases hlocked : r.locked with
  | true =>
    obtain rfl := Except.ok.inj ((LatencyReceiver.deliverFrame_of_locked hlocked).symm.trans h)
    exact ⟨hfetched, by simp⟩
  | false =>
    cases hawait : r.awaitingData with
    | false =>
      obtain rfl := Except.ok.inj ((LatencyReceiver.deliverFrame_of_idle hawait).symm.trans h)
      exact ⟨hfetched, by simp⟩
    | true =>
      obtain ⟨frame, hptr, hsize⟩ := hfetched hlocked
      obtain rfl := Except.ok.inj
        ((LatencyReceiver.deliverFrame_of_awaiting hawait hlocked hptr hsize).symm.trans h)
      refine ⟨by rintro ⟨⟩, ?_⟩
      have hwhole := hroom hlocked hawait
      rw [hsize] at hwhole
      simp [waiting, hlocked, hptr, List.take_of_length_le hwhole]

/-- A frame takes the place of the one that waits. -/
theorem receive_passes {frame : Frame}
    (hroom : r.awaitingData = true → frame.val.length ≤ r.fMaxSize.toNat)
    (h : LatencyReceiver.step r (.receive frame) = some r') : Passes r r' [frame.val] := by
  unfold LatencyReceiver.step at h
  split_ifs at h
  have hcall := toOption_eq_some_iff.mp h
  obtain ⟨m, hm⟩ := LatencyReceiver.startMonitor_eq { r with received := r.received ++ [frame.val] }
  unfold LatencyReceiver.afterGettingFrame at hcall
  simp only [hm, bind_eq_ok_iff] at hcall
  obtain ⟨r₁, hdeliver, hcount⟩ := hcall
  obtain ⟨n, e, hn⟩ := LatencyReceiver.countFrame_eq r₁
  rw [hn] at hcount
  obtain rfl := Except.ok.inj hcount
  have hwait : Fetched (LatencyReceiver.State.unlock { r with
      received := r.received ++ [frame.val]
      monitor := m
      nalPtr := some frame.val
      nalSize := frame.val.length }) := fun _ => ⟨frame, rfl, rfl⟩
  obtain ⟨hfetched, hsplit⟩ := deliverFrame_passes hwait (fun _ hawait => hroom hawait) hdeliver
  exact ⟨hfetched, hsplit⟩

theorem request_passes {fMaxSize : UInt32} (hfetched : Fetched r)
    (hroom : r.locked = false → r.nalSize ≤ fMaxSize.toNat)
    (h : LatencyReceiver.step r (.request fMaxSize) = some r') : Passes r r' (waiting r) := by
  unfold LatencyReceiver.step at h
  split_ifs at h
  have hcall : deliverFrame { r with awaitingData := true, fMaxSize } = .ok r' :=
    toOption_eq_some_iff.mp h
  obtain ⟨hfetched', hsplit⟩ := deliverFrame_passes (r := { r with awaitingData := true, fMaxSize })
    hfetched (fun hlocked _ => hroom hlocked) hcall
  exact ⟨hfetched', hsplit⟩

theorem monitor_passes (hfetched : Fetched r)
    (h : LatencyReceiver.step r .monitor = some r') : Passes r r' (waiting r) := by
  have hsame : r'.handed = r.handed ∧ waiting r' = waiting r ∧ Fetched r' := by
    cases (LatencyReceiver.counted_of_step h).2 with
    | lapse seen => exact ⟨rfl, rfl, hfetched⟩
    | look monitor fresh => exact ⟨rfl, rfl, hfetched⟩
  obtain ⟨hhanded, hwaiting, hfetched'⟩ := hsame
  refine ⟨hfetched', ?_⟩
  rw [hhanded, hwaiting, List.drop_length, List.nil_append]

end Receiver

/-! ## The network of the sender -/

/-- The frames on the way: on either link or in the receiver. -/
def onTheWay (s : State) : List (List UInt8) :=
  s.there.inFlight ++ (waiting s.receiver ++ s.back.inFlight)

def Sample.of (x : LatencySender.Sample) : Sample where
  payload := x.frame.payload
  received := x.received
  diff := x.diff

/-- The process has ended over a frame that came back and that it could not find. -/
def Refused (p : LatencySender.State) : Prop :=
  match p.exited with
  | some (.notFound _ _) | some (.sizeMismatch _ _) => True
  | some .sizeInUse | some (.inactive _) | some (.finished _) | none => False

/-- To the sender all is as over this network: as long as it runs, the frames in flight are those
on the way, and each frame that was sent has been measured or is pending. -/
structure Simulated (s : State) (a : LatencySender.System) : Prop where
  prog : a.prog = s.sender
  samples : a.samples.map Sample.of = s.samples
  flight : s.sender.exited = none → a.inFlight.map (·.payload) ~ onTheWay s
  ledger : ¬ Refused s.sender → a.samples.map (·.frame) ++ a.pending ~ s.sent
  fetched : LatencyReceiver.Fetched s.receiver

theorem not_refused_of_running {p : LatencySender.State} (h : p.exited = none) : ¬ Refused p := by
  simp [Refused, h]

theorem simulated_initial : Simulated {} {} where
  prog := rfl
  samples := rfl
  flight _ := List.Perm.nil
  ledger _ := List.Perm.nil
  fetched := by rintro ⟨⟩

/-- Every frame that comes back is measured, or the process ends over it. -/
theorem refused_of_none {p : LatencySender.State} {payload : List UInt8} {now : Int}
    (h : (LatencySender.afterGettingFrame p payload now).2 = none) :
    Refused (LatencySender.afterGettingFrame p payload now).1 := by
  unfold LatencySender.afterGettingFrame at h ⊢
  dsimp only at h ⊢
  cases hlookup : (LatencySender.startMonitor p).timestamps.lookup payload.length with
  | none => trivial
  | some info =>
    rw [hlookup] at h
    dsimp only at h ⊢
    by_cases hsize : info.second = payload.length
    · rw [if_pos hsize] at h
      split_ifs at h
    · rw [if_neg hsize]
      trivial

section Network

variable {a : LatencySender.System}

theorem exists_inFlight {payload : List UInt8} (h : payload ∈ a.inFlight.map (·.payload)) :
    ∃ i frame, a.inFlight[i]? = some frame ∧ frame.payload = payload ∧
      a.inFlight.map (·.payload) ~ payload :: (a.inFlight.eraseIdx i).map (·.payload) := by
  obtain ⟨frame, hframe, rfl⟩ := List.mem_map.mp h
  obtain ⟨i, hi⟩ := List.getElem?_of_mem hframe
  exact ⟨i, frame, hi, rfl, (Link.perm_cons_eraseIdx hi).map _⟩

/-- The network can lose any of the frames in flight. -/
theorem exists_lose (base : Nat) (mem : List UInt8) (hrunning : a.prog.exited = none)
    {xs ys : List (List UInt8)}
    (h : a.inFlight.map (·.payload) ~ xs ++ ys) :
    ∃ es a', Run (LatencySender.step base mem) a es a' ∧
      EveryStep (LatencySender.step base mem)
        (fun _ a e => LatencySender.Fits base mem a e) a es ∧
      es.filterMap LatencySender.signal = [] ∧ a'.prog = a.prog ∧ a'.samples = a.samples ∧
      a'.pending ~ a.pending ∧ a'.inFlight.map (·.payload) ~ ys := by
  induction xs generalizing a with
  | nil => exact ⟨[], a, run_nil.mpr rfl, everyStep_nil, rfl, rfl, rfl, .refl _, h⟩
  | cons x xs ih =>
    have hmem : x ∈ a.inFlight.map (·.payload) := h.mem_iff.mpr List.mem_cons_self
    obtain ⟨i, frame, hi, rfl, hperm⟩ := exists_inFlight hmem
    have hstep : LatencySender.step base mem a (.lose i) = some
        { a with inFlight := a.inFlight.eraseIdx i, lost := frame :: a.lost } := by
      simp [LatencySender.step, hrunning, hi]
    obtain ⟨es, a', hrun, hfits, hsignal, hprog, hsamples, hpending, hflight⟩ :=
      ih (a := { a with inFlight := a.inFlight.eraseIdx i, lost := frame :: a.lost }) hrunning
        (hperm.symm.trans h).cons_inv
    refine ⟨.lose i :: es, a', run_cons.mpr ⟨_, hstep, hrun⟩, ?_, ?_, hprog, hsamples, ?_, hflight⟩
    · refine everyStep_cons.mpr ⟨trivial, fun mid hmid => ?_⟩
      obtain rfl := Option.some.inj (hstep.symm.trans hmid)
      exact hfits
    · exact hsignal
    · exact hpending.trans
        (List.perm_middle.trans (LatencySender.pending_perm hi).symm)

end Network

section Steps

variable {base : Nat} {mem : List UInt8} {s s' : State} {a : LatencySender.System} {e : Event}

/-- A step of the test is a run of the sender over its network, which sees the same. -/
def Matched (base : Nat) (mem : List UInt8) (s' : State) (a : LatencySender.System)
    (seen : Option Signal) : Prop :=
  ∃ es a', Run (LatencySender.step base mem) a es a' ∧
    EveryStep (LatencySender.step base mem) (fun _ a e => LatencySender.Fits base mem a e) a es ∧
    es.filterMap LatencySender.signal = seen.toList ∧ Simulated s' a'

theorem matched_silent (h : Simulated s' a) : Matched base mem s' a none :=
  ⟨[], a, run_nil.mpr rfl, everyStep_nil, rfl, h⟩

theorem matched_step (event : LatencySender.Event) (a' : LatencySender.System)
    (hstep : LatencySender.step base mem a event = some a')
    (hfits : LatencySender.Fits base mem a event) (h : Simulated s' a') :
    Matched base mem s' a (LatencySender.signal event) := by
  refine ⟨[event], a', run_cons.mpr ⟨a', hstep, run_nil.mpr rfl⟩, everyStep_singleton hfits, ?_, h⟩
  rw [List.filterMap_cons, List.filterMap_nil]
  cases LatencySender.signal event <;> rfl

/-- A step that the sender has no part in: some frames on the way may be gone. -/
theorem Simulated.elsewhere (h : Simulated s a) (hsender : s'.sender = s.sender)
    (hsent : s'.sent = s.sent) (hsamples : s'.samples = s.samples)
    (hfetched : LatencyReceiver.Fetched s'.receiver) (gone : List (List UInt8))
    (hway : onTheWay s ~ gone ++ onTheWay s') : Matched base mem s' a none := by
  cases hexited : s.sender.exited with
  | some exit =>
    refine matched_silent ⟨h.prog.trans hsender.symm, h.samples.trans hsamples.symm, ?_, ?_,
      hfetched⟩
    · intro hnone
      rw [hsender, hexited] at hnone
      cases hnone
    · rw [hsender, hsent]
      exact h.ledger
  | none =>
    obtain ⟨es, a', hrun, hfits, hsignal, hprog, hlatencies, hpending, hflight⟩ :=
      exists_lose base mem (h.prog ▸ hexited) ((h.flight hexited).trans hway)
    refine ⟨es, a', hrun, hfits, hsignal, ?_, ?_, fun _ => hflight, ?_, hfetched⟩
    · rw [hprog, h.prog, hsender]
    · rw [hlatencies, h.samples, hsamples]
    · rw [hlatencies, hsent, hsender]
      exact fun hrefused => (hpending.append_left _).trans (h.ledger hrefused)

theorem receiverStep_eq_some {event : LatencyReceiver.Event}
    (h : receiverStep s event = some s') :
    ∃ receiver, LatencyReceiver.step s.receiver event = some receiver ∧ s' = { s with
      receiver, back := s.back.send (receiver.handed.drop s.receiver.handed.length) } := by
  unfold receiverStep at h
  obtain ⟨receiver, hreceiver, heq⟩ := Option.bind_eq_some_iff.mp h
  exact ⟨receiver, hreceiver, (Option.some.inj heq).symm⟩

/-- What the receiver hands on stays on the way. -/
theorem Passes.onTheWay {receiver : LatencyReceiver.State} {frames : List (List UInt8)}
    (h : Passes s.receiver receiver frames) :
    onTheWay { s with
      receiver, back := s.back.send (receiver.handed.drop s.receiver.handed.length) } ~
      s.there.inFlight ++ (frames ++ s.back.inFlight) := by
  refine List.Perm.append_left _ ?_
  rw [← h.split]
  change waiting receiver ++ (s.back.inFlight ++ _) ~ _
  calc waiting receiver ++ (s.back.inFlight ++ receiver.handed.drop s.receiver.handed.length)
      ~ waiting receiver ++ (receiver.handed.drop s.receiver.handed.length ++ s.back.inFlight) :=
        List.perm_append_comm.append_left _
    _ = waiting receiver ++ receiver.handed.drop s.receiver.handed.length ++ s.back.inFlight :=
        (List.append_assoc _ _ _).symm
    _ ~ receiver.handed.drop s.receiver.handed.length ++ waiting receiver ++ s.back.inFlight :=
        List.perm_append_comm.append_right _

/-- A frame that is sent is on the way there. -/
theorem Simulated.deliver {awaitingData : Bool} {fMaxSize : UInt32} {now : Int}
    (h : Simulated s a) (hwhole : Whole base mem s (.deliver awaitingData fMaxSize now))
    (hs : step base mem s (.deliver awaitingData fMaxSize now) = some s') :
    Matched base mem s' a none := by
  simp only [step, Option.ite_none_left_eq_some] at hs
  obtain ⟨hexited, hs⟩ := hs
  have hnone : s.sender.exited = none := by simpa using hexited
  have hfits : LatencySender.Fits base mem a (.deliver awaitingData fMaxSize now) := by
    intro nalState size data hnal
    rw [h.prog] at hnal
    exact hwhole (nalState, size, some data) (toOption_eq_some_iff.mpr hnal) rfl
  have hflight := h.flight hnone
  have hledger := h.ledger (not_refused_of_running hnone)
  cases hcall : LatencySender.deliverFrame base mem s.sender awaitingData fMaxSize now with
  | error fault =>
    rw [hcall] at hs
    cases hs
  | ok r =>
    obtain ⟨sender, payload⟩ := r
    rw [hcall] at hs
    cases payload with
    | none =>
      obtain rfl := Option.some.inj hs
      have hstep : LatencySender.step base mem a (.deliver awaitingData fMaxSize now) =
          some { a with prog := sender } := by
        simp [LatencySender.step, h.prog, hnone, hcall]
      exact matched_step _ _ hstep hfits
        ⟨rfl, h.samples, fun _ => hflight, fun _ => hledger, h.fetched⟩
    | some payload =>
      obtain rfl := Option.some.inj hs
      have hstep : LatencySender.step base mem a (.deliver awaitingData fMaxSize now) =
          some { a with prog := sender, inFlight := { payload, sent := now } :: a.inFlight } := by
        simp [LatencySender.step, h.prog, hnone, hcall]
      refine matched_step _ _ hstep hfits ⟨rfl, h.samples, fun _ => ?_, fun _ => ?_, h.fetched⟩
      · change payload :: a.inFlight.map (·.payload) ~ (s.there.inFlight ++ [payload]) ++ _
        rw [List.append_assoc]
        exact (hflight.cons payload).trans List.perm_middle.symm
      · exact List.perm_middle.trans (hledger.cons _)

/-- A frame that arrives at the receiver takes the place of the one that waits. -/
theorem Simulated.echo {i : Nat} (h : Simulated s a) (hwhole : Whole base mem s (.echo i))
    (hs : step base mem s (.echo i) = some s') : Matched base mem s' a none := by
  obtain ⟨⟨payload, there⟩, hdeliver, hs⟩ := Option.bind_eq_some_iff.mp hs
  obtain ⟨receiver, hreceiver, rfl⟩ := receiverStep_eq_some hs
  obtain ⟨hinFlight, -⟩ := Link.deliver_eq_some hdeliver
  have hi : s.there.inFlight[i]? = some payload := by
    obtain ⟨x, hx, heq⟩ := Option.map_eq_some_iff.mp hdeliver
    cases heq
    exact hx
  obtain ⟨hbuffer, hsink⟩ := hwhole payload hi
  have hpayload : (received payload).val = payload := List.take_of_length_le hbuffer
  have hpasses : Passes s.receiver receiver [(received payload).val] :=
    receive_passes (fun hawait => (congrArg List.length hpayload).trans_le (hsink hawait)) hreceiver
  rw [hpayload] at hpasses
  refine h.elsewhere rfl rfl rfl hpasses.fetched (waiting s.receiver) ?_
  have hway := Passes.onTheWay (s := { s with there }) hpasses
  refine List.Perm.trans ?_ (hway.symm.append_left _)
  change s.there.inFlight ++ (waiting s.receiver ++ s.back.inFlight) ~
    waiting s.receiver ++ (there.inFlight ++ ([payload] ++ s.back.inFlight))
  calc s.there.inFlight ++ (waiting s.receiver ++ s.back.inFlight)
      ~ payload :: there.inFlight ++ (waiting s.receiver ++ s.back.inFlight) :=
        hinFlight.append_right _
    _ ~ waiting s.receiver ++ (payload :: there.inFlight ++ s.back.inFlight) := by
        rw [← List.append_assoc, ← List.append_assoc]
        exact List.perm_append_comm.append_right _
    _ ~ waiting s.receiver ++ (there.inFlight ++ ([payload] ++ s.back.inFlight)) :=
        List.perm_middle.symm.append_left _

theorem Simulated.request {fMaxSize : UInt32} (h : Simulated s a)
    (hwhole : Whole base mem s (.request fMaxSize))
    (hs : step base mem s (.request fMaxSize) = some s') : Matched base mem s' a none := by
  obtain ⟨receiver, hreceiver, rfl⟩ := receiverStep_eq_some hs
  have hpasses := request_passes h.fetched hwhole hreceiver
  exact h.elsewhere rfl rfl rfl hpasses.fetched [] hpasses.onTheWay.symm

theorem Simulated.receiverMonitor (h : Simulated s a)
    (hs : step base mem s .receiverMonitor = some s') : Matched base mem s' a none := by
  obtain ⟨receiver, hreceiver, rfl⟩ := receiverStep_eq_some hs
  have hpasses := monitor_passes h.fetched hreceiver
  exact h.elsewhere rfl rfl rfl hpasses.fetched [] hpasses.onTheWay.symm

/-- A frame that comes back is received from the network. -/
theorem Simulated.receive {i : Nat} {now : Int} (h : Simulated s a)
    (hs : step base mem s (.receive i now) = some s') :
    Matched base mem s' a (some .arrival) := by
  simp only [step, Option.ite_none_left_eq_some] at hs
  obtain ⟨hexited, hs⟩ := hs
  have hnone : s.sender.exited = none := by simpa using hexited
  obtain ⟨⟨payload, back⟩, hdeliver, hs⟩ := Option.bind_eq_some_iff.mp hs
  obtain rfl := Option.some.inj hs
  obtain ⟨hinFlight, -⟩ := Link.deliver_eq_some hdeliver
  have hway : onTheWay s ~ payload :: onTheWay { s with back } := by
    change s.there.inFlight ++ (waiting s.receiver ++ s.back.inFlight) ~
      payload :: (s.there.inFlight ++ (waiting s.receiver ++ back.inFlight))
    rw [← List.append_assoc, ← List.append_assoc]
    exact (hinFlight.append_left _).trans List.perm_middle
  have hflight := (h.flight hnone).trans hway
  obtain ⟨j, frame, hj, rfl, hperm⟩ := exists_inFlight (hflight.mem_iff.mpr List.mem_cons_self)
  have hpending := LatencySender.pending_perm hj
  refine matched_step (.receive j now) { a with
    prog := (LatencySender.afterGettingFrame s.sender frame.payload now).1
    inFlight := a.inFlight.eraseIdx j
    samples := a.samples ++ ((LatencySender.afterGettingFrame s.sender frame.payload now).2.map
      ({ frame, received := now, diff := · })).toList } ?_ trivial
    ⟨rfl, ?_, fun _ => ?_, fun hrefused => ?_, h.fetched⟩
  · simp [LatencySender.step, h.prog, hnone, hj]
  · rw [List.map_append, h.samples]
    cases (LatencySender.afterGettingFrame s.sender frame.payload now).2 <;> rfl
  · exact (hperm.symm.trans hflight).cons_inv
  · have hledger := (hpending.symm.append_left _).trans (h.ledger (not_refused_of_running hnone))
    change (a.samples ++ _).map _ ++ (a.inFlight.eraseIdx j ++ a.lost) ~ s.sent
    cases hdiff : (LatencySender.afterGettingFrame s.sender frame.payload now).2 with
    | none => exact absurd (refused_of_none hdiff) hrefused
    | some diff => simpa using hledger

theorem Simulated.senderMonitor (h : Simulated s a)
    (hs : step base mem s .senderMonitor = some s') : Matched base mem s' a (some .check) := by
  simp only [step, Option.ite_none_left_eq_some] at hs
  obtain ⟨hexited, hs⟩ := hs
  have hnone : s.sender.exited = none := by simpa using hexited
  obtain ⟨sender, hsender, rfl⟩ := Option.map_eq_some_iff.mp hs
  refine matched_step .monitor { a with prog := sender } ?_ trivial
    ⟨rfl, h.samples, fun _ => h.flight hnone,
      fun _ => h.ledger (not_refused_of_running hnone), h.fetched⟩
  simp [LatencySender.step, h.prog, hnone, hsender]

theorem Simulated.lose (h : Simulated s a) :
    (∀ i, step base mem s (.loseThere i) = some s' → Matched base mem s' a none) ∧
      ∀ i, step base mem s (.loseBack i) = some s' → Matched base mem s' a none := by
  constructor
  · intro i hs
    obtain ⟨there, hdrop, rfl⟩ := Option.map_eq_some_iff.mp hs
    obtain ⟨payload, hinFlight, -⟩ := Link.drop_eq_some hdrop
    exact h.elsewhere rfl rfl rfl h.fetched [payload] (hinFlight.append_right _)
  · intro i hs
    obtain ⟨back, hdrop, rfl⟩ := Option.map_eq_some_iff.mp hs
    obtain ⟨payload, hinFlight, -⟩ := Link.drop_eq_some hdrop
    refine h.elsewhere rfl rfl rfl h.fetched [payload] ?_
    change s.there.inFlight ++ (waiting s.receiver ++ s.back.inFlight) ~
      payload :: (s.there.inFlight ++ (waiting s.receiver ++ back.inFlight))
    rw [← List.append_assoc, ← List.append_assoc]
    exact (hinFlight.append_left _).trans List.perm_middle

/-- The sender over its network simulates the test. -/
theorem simulates (base : Nat) (mem : List UInt8) :
    Simulates (LatencySender.step base mem) (step base mem) LatencySender.signal signal
      (LatencySender.Fits base mem) (Whole base mem) Simulated := by
  intro s e s' a h hwhole hs
  cases e with
  | deliver awaitingData fMaxSize now => exact h.deliver hwhole hs
  | echo i => exact h.echo hwhole hs
  | request fMaxSize => exact h.request hwhole hs
  | receive i now => exact h.receive hs
  | loseThere i => exact h.lose.1 i hs
  | loseBack i => exact h.lose.2 i hs
  | senderMonitor => exact h.senderMonitor hs
  | receiverMonitor => exact h.receiverMonitor hs

/-- Over its network the sender finds every frame that comes back. -/
theorem not_refused_of_step {event : LatencySender.Event} {a' : LatencySender.System}
    (h : LatencySender.Pending a) (hs : LatencySender.step base mem a event = some a') :
    ¬ Refused a'.prog := by
  obtain ⟨hnone, hcounted⟩ := LatencySender.counted_of_step hs
  cases hcounted with
  | deliver counters monitor samples exited =>
    rcases exited with exited | exited <;> simp [Refused, exited]
  | @refuse _ i now exit failure exited counters samples =>
    -- a frame in flight is pending, so that it has been measured
    cases hi : a.inFlight[i]? with
    | none => simp [LatencySender.step, hnone, hi] at hs
    | some frame =>
      have hmem := (LatencySender.pending_perm hi).mem_iff.mpr List.mem_cons_self
      obtain ⟨prog, hcall, -⟩ :=
        LatencySender.afterGettingFrame_of_lookup (h.tracks.lookup_of_mem hmem) now
      have hgrown : a'.samples = a.samples ++
          [{ frame, received := now, diff := microseconds (now - frame.sent) }] := by
        simp only [LatencySender.step, hnone, hi, hcall] at hs
        exact congrArg LatencySender.System.samples (Option.some.inj hs).symm
      rw [samples, List.self_eq_append_right] at hgrown
      cases hgrown
  | receive frames samples monitor exited =>
    split_ifs at exited <;> simp [Refused, exited]
  | lose prog samples =>
    rw [prog]
    exact not_refused_of_running hnone
  | lapse seen prog samples =>
    rw [prog]
    exact id
  | look monitor fresh prog samples =>
    rw [prog]
    exact not_refused_of_running hnone

end Steps

/-- In every run in which no frame is truncated, the sender does what it does over one network that
may reorder and lose frames: it ends in the same state with the same latencies, and its monitor
sees the same. -/
theorem echo_refines {base : Nat} {mem : List UInt8} {events : List Event} {s : State}
    (hrun : Run (step base mem) {} events s)
    (hwhole : EveryStep (step base mem) (fun _ s e => Whole base mem s e) {} events) :
    ∃ es a, Run (LatencySender.step base mem) {} es a ∧
      EveryStep (LatencySender.step base mem)
        (fun _ a e => LatencySender.Fits base mem a e) {} es ∧
      es.filterMap LatencySender.signal = events.filterMap signal ∧ a.prog = s.sender ∧
      a.samples.map Sample.of = s.samples ∧
      (s.sender.exited = none → a.inFlight.map (·.payload) ~ onTheWay s) := by
  obtain ⟨es, a, hes, hfits, hsignal, h⟩ :=
    (simulates base mem).run simulated_initial hwhole hrun
  exact ⟨es, a, hes, hfits, hsignal, h.prog, h.samples, h.flight⟩

/-- A file of three NAL units. -/
def threeNals : List UInt8 :=
  [0, 0, 1, 38, 0, 0, 1, 2, 5, 0, 0, 1, 2, 5, 7]

/-- The first NAL unit is handed on at once; the third takes the place of the second, and comes
back before the first. -/
def overwritten : List Event :=
  [.request 60000, .deliver true 60000 0, .echo 0, .deliver true 60000 10000,
    .deliver true 60000 20000, .echo 0, .echo 0, .request 60000, .receive 1 60000,
    .senderMonitor, .receive 0 90000, .receiverMonitor]

theorem echo_refines_overwritten :
    ∃ s, Run (step 0 threeNals) {} overwritten s ∧
      ∃ es a, Run (LatencySender.step 0 threeNals) {} es a ∧
        EveryStep (LatencySender.step 0 threeNals)
          (fun _ a e => LatencySender.Fits 0 threeNals a e) {} es ∧
        es.filterMap LatencySender.signal = [.arrival, .check, .arrival] ∧ a.prog = s.sender ∧
        a.samples.map Sample.of = s.samples ∧
        (s.sender.exited = none → a.inFlight.map (·.payload) ~ onTheWay s) := by
  have hrun : Run (step 0 threeNals) {} overwritten _ :=
    run_get (by decide +kernel)
  exact ⟨_, hrun, echo_refines hrun (by decide +kernel)⟩

/-- The latency of a frame. -/
def Measures (frame : Sent) (x : Sample) : Prop :=
  frame.payload = x.payload ∧ x.diff = microseconds (x.received - frame.sent)

/-- In every run in which no frame is truncated, every frame that comes back to the sender is
found, and its latency is that of a frame that was sent with its bytes.  Each frame that was sent
has been measured once, or the map has its entry. -/
theorem echo_measures {base : Nat} {mem : List UInt8} {events : List Event} {s : State}
    (hrun : Run (step base mem) {} events s)
    (hwhole : EveryStep (step base mem) (fun _ s e => Whole base mem s e) {} events) :
    ¬ Refused s.sender ∧ ∃ measured pending, measured ++ pending ~ s.sent ∧
      List.Forall₂ Measures measured s.samples ∧
      s.sender.timestamps.entries ~ pending.map Sent.entry ∧
      (pending.map (·.payload.length)).Nodup := by
  obtain ⟨es, a, hes, hfits, -, h⟩ := (simulates base mem).run simulated_initial hwhole hrun
  obtain ⟨hpending, hrefused⟩ : LatencySender.Pending a ∧ ¬ Refused a.prog :=
    Run.preserves_of_everyStep (P := fun a => LatencySender.Pending a ∧ ¬ Refused a.prog) hes
      ⟨LatencySender.pending_initial, id⟩ hfits
      fun _ _ _ _ hmid hfit hs => ⟨hmid.1.step hfit hs, not_refused_of_step hmid.1 hs⟩
  rw [h.prog] at hrefused
  refine ⟨hrefused, a.samples.map (·.frame), a.pending, h.ledger hrefused, ?_, ?_, ?_⟩
  · rw [← h.samples, List.forall₂_map_left_iff, List.forall₂_map_right_iff, List.forall₂_same]
    exact fun x hx => ⟨rfl, hpending.latency x hx⟩
  · rw [← h.prog]
    exact hpending.tracks
  · exact hpending.tracks.keys_nodup

theorem echo_measures_overwritten :
    ∃ s, Run (step 0 threeNals) {} overwritten s ∧ ¬ Refused s.sender ∧
      ∃ measured pending, measured ++ pending ~ s.sent ∧
        List.Forall₂ Measures measured s.samples ∧
        s.sender.timestamps.entries ~ pending.map Sent.entry ∧
        (pending.map (·.payload.length)).Nodup := by
  have hrun : Run (step 0 threeNals) {} overwritten _ := run_get (by decide +kernel)
  exact ⟨_, hrun, echo_measures hrun (by decide +kernel)⟩

end RtpBenchmarks.Live555.Echo
