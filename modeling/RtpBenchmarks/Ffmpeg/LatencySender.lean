import Mathlib.Data.List.AList
import RtpBenchmarks.Foundation.Channel
import RtpBenchmarks.Foundation.Runs
import RtpBenchmarks.Foundation.Scalars
import RtpBenchmarks.Latency.Report

set_option autoImplicit false

/-!
# FFmpeg latency sender (`ffmpeg/latency_sender.cc`)

The sender goes through the chunks of the file; it skips a chunk whose size is a key of
the map `timestamps`, and of any other it puts the send time at the back of the deque
`timestamps2` and writes it to the network.  The receiver takes the send time of each
packet that comes back from the front of the deque.

The system is a step function: the two loops take steps in any order, and the network
delivers the packets in the order in which they were written or loses them.  What a
packet holds when it comes back is arbitrary, as the library splits the stream anew.
`sends` remembers the send time of every packet.

A step computes the right latency exactly when `Matched` holds of it.  As long as nothing
is lost it does; the packet behind a lost one is given the send time of that.
-/

namespace RtpBenchmarks.Ffmpeg.LatencySender

open RtpBenchmarks.Foundation
open RtpBenchmarks.Latency (Report)

/-! ## The code -/

/-- The local variables of `receiver` that count the packets. -/
structure Counters where
  frames : Nat := 0
  intras : Nat := 0
  inters : Nat := 0
  frameTotal : Nat := 0
  intraTotal : Nat := 0
  interTotal : Nat := 0
  deriving DecidableEq, Repr

/-- What is printed behind the loop. -/
def Counters.report (c : Counters) : Report where
  frames := c.frames
  intra := { total := c.intraTotal, count := c.intras }
  inter := { total := c.interTotal, count := c.inters }
  avg := { total := c.frameTotal, count := c.frames }

/-- `total += diff / 1000`, of a signed number of microseconds to a `uint64_t`. -/
def addMs (total : Nat) (diff : Int) : Nat :=
  ((total + diff.tdiv 1000) % 2 ^ 64).toNat

/-- The type in the header behind the start code of three bytes; the library pads the
data of a packet with zero bytes. -/
def nalType (data : List UInt8) : UInt8 :=
  (data.getD 3 0 >>> 1) &&& 0x3f

/-- The updates of the counters for a packet. -/
def Counters.count (c : Counters) (nalType : UInt8) (diff : Int) : Counters :=
  let c :=
    if nalType = 19 then { c with intraTotal := addMs c.intraTotal diff, intras := c.intras + 1 }
    else if nalType = 1 then
      { c with interTotal := addMs c.interTotal diff, inters := c.inters + 1 }
    else c
  let c := { c with frames := c.frames + 1 }
  if c.frames < 596 then { c with frameTotal := addMs c.frameTotal diff } else c

/-- Where the sender is in its loop: before the next chunk, or between the recording of
its send time and `av_interleaved_write_frame`. -/
inductive Phase where
  | next
  | writing
  deriving DecidableEq, Repr

/-- The globals, the chunks that `sender` has left, and the counters of `receiver`, with
what it has printed. -/
structure State where
  chunkSizes : List Nat
  phase : Phase := .next
  offset : Nat := 0
  currentFrame : Nat := 0
  ffKey : Nat := 0
  timestamps : AList (fun _ : Nat => Int) := ∅
  timestamps2 : List Int := []
  counters : Counters := {}
  printed : Option Report := none
  deriving DecidableEq

/-- The body of the sender's loop up to the recording of the send times; the clock is read
for each. -/
def recordChunk (s : State) (chunkSize : Nat) (rest : List Nat) (now now' : Int) : State :=
  let s := { s with ffKey := if s.offset = 0 then chunkSize else s.ffKey }
  if chunkSize ∈ s.timestamps then
    { s with chunkSizes := rest }
  else
    { s with
      timestamps := s.timestamps.insert chunkSize now
      timestamps2 := s.timestamps2 ++ [now']
      phase := .writing }

/-- The rest of the body, behind which it sleeps. -/
def writeChunk (s : State) (chunkSize : Nat) (rest : List Nat) : State :=
  { s with
    chunkSizes := rest
    currentFrame := s.currentFrame + 1
    offset := s.offset + chunkSize
    phase := .next }

/-- The body of the receiver's loop for a packet, with the latency that it computes;
`none` when `timestamps2` has no front. -/
def receivePacket (s : State) (data : List UInt8) (now : Int) : Option (State × Int) :=
  match s.timestamps2 with
  | [] => none
  | front :: timestamps2 =>
    let key := if s.counters.frames = 0 then s.ffKey else (data.length + 2 ^ 64 - 1) % 2 ^ 64
    let diff := (now - front).tdiv 1000
    let s :=
      { s with timestamps2 := timestamps2, counters := s.counters.count (nalType data) diff }
    if s.counters.frames < 596 then
      some ({ s with timestamps := s.timestamps.erase key }, diff)
    else some ({ s with printed := some s.counters.report }, diff)

/-! ## The system -/

/-- The program, the network, and the send times of all packets.  `fault` is set when the
front is taken of an empty deque. -/
structure System where
  prog : State
  channel : Channel := {}
  sends : List Int := []
  fault : Bool := false
  deriving DecidableEq

/-- An atomic step: of the sender's loop, of the receiver's loop for the next packet or
for the end of the stream, or the loss of a packet on the way. -/
inductive Event where
  | record (now now' : Int)
  | write
  | receive (data : List UInt8) (now : Int)
  | close
  | lose (i : Nat)
  deriving DecidableEq, Repr

/-- A step of the program; `none` where it cannot be taken. -/
def step (s : System) (e : Event) : Option System :=
  if s.fault then none
  else
    match e with
    | .record now now' =>
      match s.prog.phase, s.prog.chunkSizes with
      | .next, chunkSize :: rest =>
        let prog := recordChunk s.prog chunkSize rest now now'
        some { s with prog, sends := if prog.phase = .writing then s.sends ++ [now'] else s.sends }
      | _, _ => none
    | .write =>
      match s.prog.phase, s.prog.chunkSizes with
      | .writing, chunkSize :: rest =>
        some { s with prog := writeChunk s.prog chunkSize rest, channel := s.channel.send }
      | _, _ => none
    | .receive data now =>
      if s.prog.printed.isSome ∨ s.channel.inFlight = [] then none
      else
        match receivePacket s.prog data now with
        | none => some { s with fault := true }
        | some (prog, _) => some { s with prog, channel := s.channel.receive }
    | .close =>
      if s.prog.printed.isSome then none
      else some { s with prog := { s.prog with printed := some s.prog.counters.report } }
    | .lose i =>
      if i < s.channel.inFlight.length then some { s with channel := s.channel.lose i }
      else none

/-- The state before the loops. -/
def initial (chunkSizes : List Nat) : System :=
  { prog := { chunkSizes } }

/-- What a step can do: its guards, and the state it leaves. -/
inductive Took (s : System) : Event → System → Prop where
  /-- a chunk whose size is a key of `timestamps` -/
  | skip {now now' : Int} {chunkSize : Nat} {rest : List Nat} (ffKey : Nat)
      (phase : s.prog.phase = .next) (sizes : s.prog.chunkSizes = chunkSize :: rest)
      (used : chunkSize ∈ s.prog.timestamps) :
      Took s (.record now now') { s with prog := { s.prog with chunkSizes := rest, ffKey } }
  | record {now now' : Int} {chunkSize : Nat} {rest : List Nat} (ffKey : Nat)
      (phase : s.prog.phase = .next) (sizes : s.prog.chunkSizes = chunkSize :: rest)
      (fresh : chunkSize ∉ s.prog.timestamps) :
      Took s (.record now now')
        { s with
          prog :=
            { s.prog with
              ffKey
              timestamps := s.prog.timestamps.insert chunkSize now
              timestamps2 := s.prog.timestamps2 ++ [now']
              phase := .writing }
          sends := s.sends ++ [now'] }
  | write {chunkSize : Nat} {rest : List Nat} (phase : s.prog.phase = .writing)
      (sizes : s.prog.chunkSizes = chunkSize :: rest) :
      Took s .write
        { s with prog := writeChunk s.prog chunkSize rest, channel := s.channel.send }
  /-- the front of an empty deque is taken -/
  | underflow {data : List UInt8} {now : Int} (arrived : s.channel.inFlight ≠ [])
      (call : receivePacket s.prog data now = none) :
      Took s (.receive data now) { s with fault := true }
  | receive {data : List UInt8} {now diff : Int} {prog : State}
      (arrived : s.channel.inFlight ≠ [])
      (call : receivePacket s.prog data now = some (prog, diff)) :
      Took s (.receive data now) { s with prog, channel := s.channel.receive }
  | close :
      Took s .close { s with prog := { s.prog with printed := some s.prog.counters.report } }
  | lose {i : Nat} (lost : i < s.channel.inFlight.length) :
      Took s (.lose i) { s with channel := s.channel.lose i }

/-- Every step is one of these. -/
theorem took_of_step {s s' : System} {e : Event} (hs : step s e = some s') : Took s e s' := by
  unfold step at hs
  rw [Option.ite_none_left_eq_some] at hs
  obtain ⟨-, hs⟩ := hs
  cases e with
  | record now now' =>
    dsimp only at hs
    split at hs
    · next chunkSize rest hphase hsizes =>
      by_cases hused : chunkSize ∈ s.prog.timestamps
      · have hprog : recordChunk s.prog chunkSize rest now now' = { s.prog with
            chunkSizes := rest
            ffKey := if s.prog.offset = 0 then chunkSize else s.prog.ffKey } := if_pos hused
        have hnext : s.prog.phase ≠ .writing := by simp [hphase]
        rw [hprog, if_neg hnext] at hs
        cases hs
        exact .skip _ hphase hsizes hused
      · simp only [recordChunk, if_neg hused, if_true] at hs
        cases hs
        exact .record _ hphase hsizes hused
    · cases hs
  | write =>
    dsimp only at hs
    split at hs
    · next hphase hsizes =>
      cases hs
      exact .write hphase hsizes
    · cases hs
  | receive data now =>
    dsimp only at hs
    split at hs
    · cases hs
    · next hguard =>
      have harrived : s.channel.inFlight ≠ [] := fun hnil => hguard (.inr hnil)
      split at hs
      · next hcall =>
        cases hs
        exact .underflow harrived hcall
      · next hcall =>
        cases hs
        exact .receive harrived hcall
  | close =>
    dsimp only at hs
    split at hs
    · cases hs
    · cases hs
      exact .close
  | lose i =>
    dsimp only at hs
    split at hs
    · next hlost =>
      cases hs
      exact .lose hlost
    · cases hs

/-! ## The deque -/

/-- The deque holds the send times that no packet has taken, there is a send time for each
packet written and one for the packet that is about to be, and packets arrive in order. -/
structure Queued (s : System) : Prop where
  queue : s.prog.timestamps2 = s.sends.drop s.channel.received
  count : s.sends.length = s.channel.sent + if s.prog.phase = .writing then 1 else 0
  order : s.channel.InOrder
  fault : s.fault = false

theorem queued_initial (chunkSizes : List Nat) : Queued (initial chunkSizes) :=
  ⟨rfl, rfl, Channel.inOrder_initial, rfl⟩

/-- The send time that is taken for the next packet. -/
theorem Queued.front {s : System} (h : Queued s) (hne : s.channel.inFlight ≠ []) :
    ∃ front, s.sends[s.channel.received]? = some front ∧
      s.prog.timestamps2 = front :: s.sends.drop (s.channel.received + 1) := by
  have hlt : s.channel.received < s.sends.length := by
    have hroom := h.order.room
    have hpos := List.length_pos_of_ne_nil hne
    have hcount := h.count
    omega
  refine ⟨s.sends[s.channel.received], List.getElem?_eq_getElem hlt, ?_⟩
  rw [h.queue, List.drop_eq_getElem_cons hlt]

/-- What the receiver does with a packet, given the front of the deque. -/
theorem receivePacket_cons {s : State} {front : Int} {queue : List Int}
    (h : s.timestamps2 = front :: queue) (data : List UInt8) (now : Int) :
    ∃ s', receivePacket s data now = some (s', (now - front).tdiv 1000) ∧
      s'.timestamps2 = queue ∧ s'.phase = s.phase := by
  simp only [receivePacket, h]
  split
  · exact ⟨_, rfl, rfl, rfl⟩
  · exact ⟨_, rfl, rfl, rfl⟩

/-- A step leaves the deque as it should be. -/
theorem Queued.step {s s' : System} {e : Event} (h : Queued s)
    (hs : step s e = some s') : Queued s' := by
  have hroom := h.order.room
  have hcount := h.count
  cases took_of_step hs with
  | skip ffKey phase _ _ =>
    exact ⟨h.queue, hcount, h.order, h.fault⟩
  | @record now now' chunkSize rest ffKey phase _ _ =>
    rw [phase, if_neg (by decide)] at hcount
    have hle : s.channel.received ≤ s.sends.length := by omega
    refine ⟨?_, ?_, h.order, h.fault⟩
    · rw [h.queue, List.drop_append_of_le_length hle]
    · simp only [List.length_append, List.length_singleton, if_true]
      omega
  | write phase _ =>
    rw [phase, if_pos rfl] at hcount
    exact ⟨h.queue, hcount, h.order.send, h.fault⟩
  | @underflow data now arrived call =>
    obtain ⟨front, -, hqueue⟩ := h.front arrived
    obtain ⟨prog, hcall, -, -⟩ := receivePacket_cons hqueue data now
    rw [hcall] at call
    cases call
  | @receive data now diff prog arrived call =>
    obtain ⟨front, -, hqueue⟩ := h.front arrived
    obtain ⟨prog', hcall, hqueue', hphase⟩ := receivePacket_cons hqueue data now
    rw [hcall] at call
    cases call
    exact ⟨hqueue', by rw [hphase]; exact hcount, h.order.receive arrived, h.fault⟩
  | close => exact ⟨h.queue, hcount, h.order, h.fault⟩
  | @lose i lost => exact ⟨h.queue, hcount, h.order.lose i, h.fault⟩

theorem queued_of_run {chunkSizes : List Nat} {evs : List Event} {s : System}
    (hrun : Run step (initial chunkSizes) evs s) : Queued s :=
  Run.invariant (I := fun _ s => Queued s) (queued_initial chunkSizes)
    (fun _ _ _ _ _ h hs => h.step hs) hrun

/-! ## When the latencies are right -/

/-- The step, if it receives a packet, computes the time since the send time of that
packet. -/
def RightLatency (s : System) : Event → Prop
  | .receive data now =>
    ∀ n rest sent prog diff, s.channel.inFlight = n :: rest → s.sends[n]? = some sent →
      receivePacket s.prog data now = some (prog, diff) → diff = (now - sent).tdiv 1000
  | .record _ _ | .write | .close | .lose _ => True

/-- The step, if it receives a packet, comes as many whole microseconds after the sending
of the packet whose number is that of the reception as after the sending of its own. -/
def Matched (s : System) : Event → Prop
  | .receive _ now =>
    ∀ n rest sent front, s.channel.inFlight = n :: rest → s.sends[n]? = some sent →
      s.sends[s.channel.received]? = some front →
      (now - front).tdiv 1000 = (now - sent).tdiv 1000
  | .record _ _ | .write | .close | .lose _ => True

/-- In particular when no packet has been lost. -/
theorem matched_of_complete {s : System} {e : Event} (h : s.channel.Complete) :
    Matched s e := by
  cases e with
  | receive data now =>
    intro n rest sent front hfirst hsent hfront
    rw [h.first hfirst, hfront] at hsent
    cases hsent
    rfl
  | record _ _ | write | close | lose _ => trivial

/-- A step of a run computes the right latency if and only if it is matched. -/
theorem rightLatency_iff {s s' : System} {e : Event} (h : Queued s)
    (hs : step s e = some s') : RightLatency s e ↔ Matched s e := by
  cases e with
  | receive data now =>
    have hne : s.channel.inFlight ≠ [] := by
      intro hnil
      simp [step, hnil] at hs
    obtain ⟨front, hfront, hqueue⟩ := h.front hne
    obtain ⟨prog, hcall, -, -⟩ := receivePacket_cons hqueue data now
    constructor
    · intro hright n rest sent front' hfirst hsent hfront'
      rw [hfront] at hfront'
      cases hfront'
      exact hright n rest sent prog _ hfirst hsent hcall
    · intro hmatched n rest sent prog' diff hfirst hsent hcall'
      rw [hcall] at hcall'
      cases hcall'
      exact hmatched n rest sent front hfirst hsent hfront
  | record _ _ | write | close | lose _ => exact Iff.rfl

/-- As long as nothing is lost the channel is complete. -/
theorem complete_step {s s' : System} {e : Event} (h : s.channel.Complete)
    (hkeep : ∀ i, e ≠ .lose i) (hs : step s e = some s') : s'.channel.Complete := by
  cases took_of_step hs with
  | skip | record | underflow | close => exact h
  | write => exact h.send
  | receive arrived _ => exact h.receive arrived
  | @lose i _ => exact absurd rfl (hkeep i)

/-- In every run the front is never taken of an empty deque, and the latencies are right at
every step if and only if every step is matched; in particular when no packet is lost. -/
theorem latencySender_fifo {chunkSizes : List Nat} {evs : List Event} {s : System}
    (hrun : Run step (initial chunkSizes) evs s) :
    s.fault = false ∧
    (EveryStep step (fun _ s e => RightLatency s e) (initial chunkSizes) evs ↔
      EveryStep step (fun _ s e => Matched s e) (initial chunkSizes) evs) ∧
    ((∀ e ∈ evs, ∀ i, e ≠ .lose i) →
      EveryStep step (fun _ s e => Matched s e) (initial chunkSizes) evs) := by
  refine ⟨(queued_of_run hrun).fault, ?_, fun hkeep => ?_⟩
  · exact everyStep_congr hrun fun done mid e mid' hmid hs =>
      rightLatency_iff (queued_of_run hmid) hs
  · intro done e rest mid hevs hmid
    refine matched_of_complete ?_
    have hdone : EveryStep step (fun _ _ e => ∀ i, e ≠ .lose i) (initial chunkSizes) done :=
      everyStep_of_forall_mem fun e he => hkeep e (by simp [hevs, he])
    exact hmid.preserves_of_everyStep (P := fun s => s.channel.Complete)
      Channel.complete_initial hdone fun _ _ _ _ h hne hs => complete_step h hne hs

/-- Two packets that come back in 40 ms. -/
theorem latencySender_fifo_two :
    ∃ s, Run step (initial [10, 20])
        [.record 0 0, .write, .record 33000000 33000000, .write,
          .receive [0, 0, 1, 38] 40000000, .receive [0, 0, 1, 2] 73000000] s ∧
      s.fault = false ∧
      EveryStep step (fun _ s e => RightLatency s e) (initial [10, 20])
        [.record 0 0, .write, .record 33000000 33000000, .write,
          .receive [0, 0, 1, 38] 40000000, .receive [0, 0, 1, 2] 73000000] := by
  have hrun : Run step (initial [10, 20])
      [.record 0 0, .write, .record 33000000 33000000, .write,
        .receive [0, 0, 1, 38] 40000000, .receive [0, 0, 1, 2] 73000000] _ :=
    run_get (by decide +kernel)
  obtain ⟨hfault, hiff, hmatched⟩ := latencySender_fifo hrun
  exact ⟨_, hrun, hfault, hiff.mpr (hmatched (by simp))⟩

/-- The first of two packets is lost; the second comes back 7 ms after it was sent and is
given 40 ms, the time since the first was sent. -/
theorem latencySender_fifo_lost :
    ¬ EveryStep step (fun _ s e => RightLatency s e) (initial [10, 20])
      ([.record 0 0, .write, .record 33000000 33000000, .write, .lose 0] ++
        [.receive [0, 0, 1, 38] 40000000]) := by
  intro h
  have hrun : Run step (initial [10, 20])
      [.record 0 0, .write, .record 33000000 33000000, .write, .lose 0] _ :=
    run_get (by decide +kernel)
  have hright := h.last hrun 1 [] 33000000 _ 40000 rfl rfl rfl
  exact absurd hright (by decide)

end RtpBenchmarks.Ffmpeg.LatencySender
