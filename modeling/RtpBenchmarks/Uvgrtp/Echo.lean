import RtpBenchmarks.Foundation.Bytes
import RtpBenchmarks.Foundation.Link
import RtpBenchmarks.Uvgrtp.LatencyReceiver

set_option autoImplicit false

/-!
# The uvgRTP latency test (`uvgrtp/latency_sender.cc`, `uvgrtp/latency_receiver.cc`)

The sender's packets go to the receiver over one link, and those that it sends back come over
another.  Either link may reorder packets and lose some.

`packetize` is what `push_frame` makes of a frame: the payloads of the packets, as the hook of
the other side gets them.  A push that fails may have sent some of them.
-/

namespace RtpBenchmarks.Uvgrtp.Echo

open RtpBenchmarks.Foundation
open RtpBenchmarks.Uvgrtp.LatencyReceiver (Counts isKind)
open RtpBenchmarks.Uvgrtp.LatencySender (Format NaluKind)
open RtpBenchmarks.V3c (NalInfo RtpFrame)
open scoped List

/-! ## The system -/

/-- The format, the file in memory, and the library. -/
structure Setup where
  format : Format
  mem : List UInt8
  packetize : List UInt8 → List (List UInt8)

/-- A packet, and the push of the sender that it comes from. -/
structure Packet where
  push : Nat
  payload : List UInt8
  deriving DecidableEq, Repr

structure State where
  sender : LatencySender.State
  receiver : LatencyReceiver.State := {}
  there : Link Packet := {}
  back : Link Packet := {}
  deriving DecidableEq, Repr

/-- A step of the sender's loop, a call of either hook, a look of the receiver's loop, or the
loss of a packet.  A packet is given by its place on the link, and `n` is how many packets are
sent by a push that fails. -/
inductive Event where
  | skip
  | record (now now' : Int)
  | push (ok : Bool) (n : Nat) (now : Int)
  | echo (i : Nat) (ok : Bool) (n : Nat)
  | hook (i : Nat) (now now' now'' : Int)
  | look
  | loseThere (i : Nat)
  | loseBack (i : Nat)
  deriving DecidableEq, Repr

/-- The packets of a frame that are sent. -/
def packets (c : Setup) (push : Nat) (frame : List UInt8) (ok : Bool) (n : Nat) : List Packet :=
  let payloads := c.packetize frame
  (if ok then payloads else payloads.take n).map ({ push, payload := · })

/-- A step of the system; `none` where it cannot be taken. -/
def step (c : Setup) (s : State) : Event → Option State
  | .skip =>
    (LatencySender.step c.format c.mem s.sender .skip).map fun sender => { s with sender }
  | .record now now' =>
    (LatencySender.step c.format c.mem s.sender (.record now now')).map
      fun sender => { s with sender }
  | .push ok n now => do
    let frame ← s.sender.queue.head?
    let bytes ← (loadBytes c.mem frame.location frame.size).toOption
    let sender ← LatencySender.step c.format c.mem s.sender (.push ok now)
    some { s with sender, there := s.there.send (packets c s.sender.pushed.length bytes ok n) }
  | .echo i ok n => do
    let (p, there) ← s.there.deliver i
    let receiver ← LatencyReceiver.step s.receiver (.frame p.payload ok)
    some { s with receiver, there, back := s.back.send (packets c p.push p.payload ok n) }
  | .hook i now now' now'' => do
    let (p, back) ← s.back.deliver i
    let frame : RtpFrame := { payload := p.payload }
    let sender ←
      LatencySender.step c.format c.mem s.sender (.hook p.push (some frame) now now' now'')
    some { s with sender, back }
  | .look => (LatencyReceiver.step s.receiver .look).map fun receiver => { s with receiver }
  | .loseThere i => (s.there.drop i).map fun there => { s with there }
  | .loseBack i => (s.back.drop i).map fun back => { s with back }

/-- The state before the sender's loop. -/
def initial (c : Setup) (map : V3c.V3cFileMap) (chunkSizes : List Nat) : State :=
  { sender := LatencySender.initial c.format map chunkSizes }

/-! ## What is counted -/

/-- The counter of a kind. -/
def senderTally (s : LatencySender.State) : NaluKind → Nat
  | .inter => s.ninters
  | .intra => s.nintras
  | .nonVcl => s.nNonVcl

def receiverTally (s : LatencyReceiver.State) : NaluKind → Nat
  | .inter => s.ninters
  | .intra => s.nintras
  | .nonVcl => s.nNonVcl

/-- The payloads of the packets. -/
def payloads (packets : List Packet) : List (List UInt8) :=
  packets.map Packet.payload

/-- How many packets are of a kind. -/
def countKind (format : Format) (kind : NaluKind) (packets : List Packet) : Nat :=
  packets.countP fun p => isKind format kind p.payload

/-- The packets of the frames that have been pushed. -/
def packetsOf (c : Setup) (pushed : List NalInfo) : List Packet :=
  pushed.zipIdx.flatMap fun (frame, push) =>
    packets c push ((c.mem.drop frame.location).take frame.size) true 0

theorem packetsOf_concat (c : Setup) (pushed : List NalInfo) (frame : NalInfo) :
    packetsOf c (pushed ++ [frame]) = packetsOf c pushed ++
      packets c pushed.length ((c.mem.drop frame.location).take frame.size) true 0 := by
  rw [packetsOf, List.zipIdx_append, List.flatMap_append, List.zipIdx_singleton,
    List.flatMap_singleton, Nat.zero_add]
  rfl

/-- The receiver's counters are those of the packets that have arrived. -/
theorem receiverTally_eq {s : LatencyReceiver.State} {packets : List Packet}
    (h : Counts s (payloads packets)) (kind : NaluKind) :
    receiverTally s kind = countKind .hevc kind packets := by
  have hcount : (payloads packets).countP (isKind .hevc kind) = countKind .hevc kind packets :=
    List.countP_map
  rw [← hcount]
  cases kind with
  | inter => exact h.inters
  | intra => exact h.intras
  | nonVcl => exact h.nonVcl

/-- What the sender has counted are these packets; other frames than inter and intra frames it
counts for HEVC only. -/
structure SenderCounts (format : Format) (s : LatencySender.State) (packets : List Packet) :
    Prop where
  total : s.totalFramesReceived = packets.length
  inters : s.ninters = countKind format .inter packets
  intras : s.nintras = countKind format .intra packets
  nonVcl : format = .hevc → s.nNonVcl = countKind format .nonVcl packets

theorem SenderCounts.tally {s : LatencySender.State} {packets : List Packet}
    (h : SenderCounts .hevc s packets) (kind : NaluKind) :
    senderTally s kind = countKind .hevc kind packets := by
  cases kind with
  | inter => exact h.inters
  | intra => exact h.intras
  | nonVcl => exact h.nonVcl rfl

section Steps

variable {format : Format} {mem : List UInt8} {s s' : LatencySender.State}
  {ps : List Packet} {p : Packet}

/-- The sender's own steps count nothing. -/
theorem SenderCounts.loop {e : LatencySender.Event} (h : SenderCounts format s ps)
    (hs : LatencySender.Steps format mem s e s') (he : ∀ k f n n' n'', e ≠ .hook k f n n' n'') :
    SenderCounts format s' ps := by
  obtain ⟨htotal, hinters, hintras, hnonVcl⟩ := h
  cases hs with
  | skipped => exact ⟨htotal, hinters, hintras, hnonVcl⟩
  | recorded =>
    unfold LatencySender.recordSendTime
    split
    · split <;> exact ⟨htotal, hinters, hintras, hnonVcl⟩
    · exact ⟨htotal, hinters, hintras, hnonVcl⟩
  | pushed =>
    unfold LatencySender.afterPush
    split <;> exact ⟨htotal, hinters, hintras, hnonVcl⟩
  | failed => exact ⟨htotal, hinters, hintras, hnonVcl⟩
  | called => exact absurd rfl (he _ _ _ _ _)

theorem countKind_concat (format : Format) (kind : NaluKind) (ps : List Packet) (p : Packet) :
    countKind format kind (ps ++ [p]) =
      countKind format kind ps + if isKind format kind p.payload then 1 else 0 := by
  rw [countKind, List.countP_append, List.countP_singleton]
  rfl

theorem addLatency_counts (s : LatencySender.State) (kind : NaluKind) (diff : Nat) :
    (LatencySender.addLatency s kind diff).totalFramesReceived = s.totalFramesReceived ∧
      (LatencySender.addLatency s kind diff).ninters =
        s.ninters + (if kind = .inter then 1 else 0) ∧
      (LatencySender.addLatency s kind diff).nintras =
        s.nintras + (if kind = .intra then 1 else 0) ∧
      (LatencySender.addLatency s kind diff).nNonVcl = s.nNonVcl := by
  cases kind <;> exact ⟨rfl, rfl, rfl, rfl⟩

/-- The logs have no part in the counters, but for the other frames of HEVC. -/
theorem logFrame_counts (format : Format) (s : LatencySender.State) (kind : NaluKind)
    (diff : Nat) (now now' : Int) :
    (LatencySender.logFrame format s kind diff now now').totalFramesReceived =
        s.totalFramesReceived ∧
      (LatencySender.logFrame format s kind diff now now').ninters = s.ninters ∧
      (LatencySender.logFrame format s kind diff now now').nintras = s.nintras := by
  unfold LatencySender.logFrame
  split_ifs <;> cases kind <;> exact ⟨rfl, rfl, rfl⟩

theorem logFrame_nNonVcl (s : LatencySender.State) (kind : NaluKind) (diff : Nat)
    (now now' : Int) : (LatencySender.logFrame .hevc s kind diff now now').nNonVcl =
      s.nNonVcl + if kind = .nonVcl then 1 else 0 := by
  cases kind <;> rfl

/-- What a call of the sender's hook counts. -/
theorem hookSender_counts {now now' now'' : Int} {frame : RtpFrame} {kind : NaluKind}
    (hkind : format.naluKind frame.payload = some kind)
    (hs : LatencySender.hookSender format s (some frame) now now' now'' = some s') :
    s'.totalFramesReceived = s.totalFramesReceived + 1 ∧
      s'.ninters = s.ninters + (if kind = .inter then 1 else 0) ∧
      s'.nintras = s.nintras + (if kind = .intra then 1 else 0) ∧
      (format = .hevc → s'.nNonVcl = s.nNonVcl + if kind = .nonVcl then 1 else 0) := by
  simp only [LatencySender.hookSender, hkind] at hs
  obtain rfl := Option.some.inj hs
  obtain ⟨htotal, hinters, hintras, hnonVcl⟩ :=
    addLatency_counts s kind (LatencySender.getDiff s now)
  obtain ⟨htotal', hinters', hintras'⟩ := logFrame_counts format
    (LatencySender.addLatency s kind (LatencySender.getDiff s now)) kind
    (LatencySender.getDiff s now) now' now''
  refine ⟨congrArg (· + 1) (htotal'.trans htotal), hinters'.trans hinters,
    hintras'.trans hintras, ?_⟩
  rintro rfl
  rw [← hnonVcl]
  exact logFrame_nNonVcl _ _ _ _ _

/-- A call of the sender's hook counts its packet. -/
theorem SenderCounts.hook {now now' now'' : Int} (h : SenderCounts format s ps)
    (hs : LatencySender.hookSender format s (some { payload := p.payload }) now now' now'' =
      some s') : SenderCounts format s' (ps ++ [p]) := by
  cases hkind : format.naluKind p.payload with
  | none =>
    simp only [LatencySender.hookSender, hkind] at hs
    cases hs
  | some kind =>
    have hcount (k : NaluKind) : countKind format k (ps ++ [p]) =
        countKind format k ps + if kind = k then 1 else 0 := by
      rw [countKind_concat, isKind, hkind]
      simp
    obtain ⟨htotal, hinters, hintras, hnonVcl⟩ := hookSender_counts hkind hs
    constructor
    · rw [htotal, h.total, List.length_append]
      rfl
    · rw [hinters, h.inters, hcount]
    · rw [hintras, h.intras, hcount]
    · intro hhevc
      rw [hnonVcl hhevc, h.nonVcl hhevc, hcount]

theorem afterPush_sending (format : Format) (s : LatencySender.State) (frame : NalInfo)
    (rest : List NalInfo) (now : Int) :
    (LatencySender.afterPush format s frame rest now).pushed = s.pushed ++ [frame] ∧
      (LatencySender.afterPush format s frame rest now).phase = .next := by
  unfold LatencySender.afterPush
  split <;> exact ⟨rfl, rfl⟩

/-- The frames that have been pushed are those before, and this one if the push succeeds;
else the loop ends. -/
theorem pushed_of_step {ok : Bool} {now : Int} {frame : NalInfo}
    (hs : LatencySender.step format mem s (.push ok now) = some s')
    (hframe : s.queue.head? = some frame) :
    s.phase ≠ .ended ∧ s'.pushed = s.pushed ++ (if ok then [frame] else []) ∧
      (s'.phase = .ended ↔ ok = false) := by
  obtain ⟨rest, hqueue⟩ := List.head?_eq_some_iff.mp hframe
  simp only [LatencySender.step, hqueue] at hs
  split at hs
  · next frame' rest' hphase heq =>
    cases heq
    obtain rfl := Option.some.inj hs
    refine ⟨by simp [hphase], ?_⟩
    cases ok with
    | false => exact ⟨(List.append_nil _).symm, by simp⟩
    | true =>
      obtain ⟨hpushed, hnext⟩ := afterPush_sending format s frame rest now
      exact ⟨hpushed, by simp [hnext]⟩
  · cases hs

end Steps

/-! ## Accounting -/

/-- What is known of the system: every packet is accounted for, what is sent back has arrived
before, and both parties have counted what has arrived. -/
structure Accounted (c : Setup) (s : State) : Prop where
  there : s.there.Conserved
  back : s.back.Conserved
  echoed : s.back.sent <+ s.there.arrived
  errors : s.there.arrived.length ≤ s.back.sent.length + s.receiver.errors
  receiver : Counts s.receiver (payloads s.there.arrived)
  sender : SenderCounts c.format s.sender s.back.arrived
  single : ∀ p ∈ s.there.sent, c.packetize p.payload = [p.payload]
  pushed : s.sender.phase ≠ .ended → s.there.sent = packetsOf c s.sender.pushed

theorem accounted_initial (c : Setup) (map : V3c.V3cFileMap) (chunkSizes : List Nat) :
    Accounted c (initial c map chunkSizes) where
  there := Link.conserved_initial
  back := Link.conserved_initial
  echoed := List.Sublist.slnil
  errors := Nat.zero_le _
  receiver := LatencyReceiver.counts_initial
  sender := ⟨rfl, rfl, rfl, fun _ => rfl⟩
  single _ h := by cases h
  pushed _ := rfl

section Steps

variable {c : Setup} {s : State}

/-- The sender's own steps other than a push. -/
theorem Accounted.loop {e : LatencySender.Event} {sender : LatencySender.State}
    (h : Accounted c s) (hs : LatencySender.step c.format c.mem s.sender e = some sender)
    (he : e = .skip ∨ ∃ now now', e = .record now now') : Accounted c { s with sender } := by
  have hsteps := LatencySender.steps_of_step hs
  have hcounts : SenderCounts c.format sender s.back.arrived := by
    apply h.sender.loop hsteps
    rintro k f n n' n'' rfl
    simp at he
  have hsame : sender.pushed = s.sender.pushed ∧
      (sender.phase ≠ .ended → s.sender.phase ≠ .ended) := by
    cases hsteps with
    | skipped => exact ⟨rfl, id⟩
    | recorded hp =>
      refine ⟨(LatencySender.recordSendTime_sending _ _ _ _ _ _).pushed, fun _ => ?_⟩
      simp [hp]
    | pushed | failed | called => simp at he
  refine ⟨h.there, h.back, h.echoed, h.errors, h.receiver, hcounts, h.single, fun hphase => ?_⟩
  exact (h.pushed (hsame.2 hphase)).trans (congrArg (packetsOf c) hsame.1.symm)

/-- A push sends packets of its frame. -/
theorem Accounted.push {ok : Bool} {n : Nat} {now : Int} {frame : NalInfo}
    {bytes : List UInt8} {sender : LatencySender.State} (h : Accounted c s)
    (hsingle : ∀ frame, ∀ payload ∈ c.packetize frame, c.packetize payload = [payload])
    (hframe : s.sender.queue.head? = some frame)
    (hbytes : loadBytes c.mem frame.location frame.size = .ok bytes)
    (hs : LatencySender.step c.format c.mem s.sender (.push ok now) = some sender) :
    Accounted c { s with
      sender, there := s.there.send (packets c s.sender.pushed.length bytes ok n) } := by
  have hcounts : SenderCounts c.format sender s.back.arrived := by
    apply h.sender.loop (LatencySender.steps_of_step hs)
    rintro k f n n' n'' ⟨⟩
  obtain ⟨hphase, hpushed, hended⟩ := pushed_of_step hs hframe
  refine ⟨h.there.send _, h.back, h.echoed, h.errors, h.receiver, hcounts, ?_, ?_⟩
  · refine List.forall_mem_append.mpr ⟨h.single, ?_⟩
    rintro p hp
    obtain ⟨payload, hmem, rfl⟩ := List.mem_map.mp hp
    apply hsingle bytes
    split_ifs at hmem
    · exact hmem
    · exact List.mem_of_mem_take hmem
  · intro hgoing
    obtain rfl : ok = true := by
      rw [← Bool.not_eq_false, ← hended]
      exact hgoing
    have hslice : (c.mem.drop frame.location).take frame.size = bytes := by
      unfold loadBytes at hbytes
      split_ifs at hbytes
      exact Except.ok.inj hbytes
    change s.there.sent ++ _ = packetsOf c sender.pushed
    rw [hpushed, if_pos rfl, packetsOf_concat, h.pushed hphase, hslice]
    rfl

/-- A packet comes to the receiver, which sends it back. -/
theorem Accounted.echo {ok : Bool} {n i : Nat} {p : Packet} {there : Link Packet}
    {receiver : LatencyReceiver.State} (h : Accounted c s)
    (hdeliver : s.there.deliver i = some (p, there))
    (hs : LatencyReceiver.step s.receiver (.frame p.payload ok) = some receiver) :
    Accounted c { s with
      receiver, there, back := s.back.send (packets c p.push p.payload ok n) } := by
  obtain ⟨hflight, harrived, hlost, hsent⟩ := Link.deliver_eq_some hdeliver
  have hthere := h.there.deliver hdeliver
  have hmem : p ∈ s.there.sent :=
    h.there.symm.subset (by simp [hflight.mem_iff])
  have hpackets : packets c p.push p.payload ok n = [p] ∨
      ok = false ∧ packets c p.push p.payload ok n = [] := by
    rw [packets, h.single p hmem]
    cases ok with
    | true => exact .inl rfl
    | false =>
      cases n with
      | zero => exact .inr ⟨rfl, rfl⟩
      | succ n => exact .inl (by simp)
  have hreceiver : Counts receiver (payloads (s.there.arrived ++ [p])) := by
    rw [payloads, List.map_append]
    exact h.receiver.hook hs
  have herrors := (LatencyReceiver.hookReceiver_frame hs).2.2.2
  have hold := h.errors
  refine ⟨hthere, h.back.send _, ?_, ?_, ?_, h.sender, ?_, ?_⟩
  · change s.back.sent ++ _ <+ there.arrived
    rw [harrived]
    apply h.echoed.append
    obtain hp | ⟨-, hp⟩ := hpackets
    · rw [hp]
    · rw [hp]
      exact List.nil_sublist _
  · change there.arrived.length ≤ (s.back.sent ++ _).length + receiver.errors
    rw [harrived, herrors, List.length_append, List.length_append, List.length_singleton]
    obtain hp | ⟨rfl, hp⟩ := hpackets
    · rw [hp, List.length_singleton]
      omega
    · rw [hp, if_neg (by decide)]
      simp only [List.length_nil]
      omega
  · rw [harrived]
    exact hreceiver
  · rw [hsent]
    exact h.single
  · rw [hsent]
    exact h.pushed

/-- A packet comes back. -/
theorem Accounted.hook {i : Nat} {p : Packet} {back : Link Packet}
    {sender : LatencySender.State} {now now' now'' : Int} (h : Accounted c s)
    (hdeliver : s.back.deliver i = some (p, back))
    (hs : LatencySender.step c.format c.mem s.sender
      (.hook p.push (some { payload := p.payload }) now now' now'') = some sender) :
    Accounted c { s with sender, back } := by
  obtain ⟨-, harrived, -, hsent⟩ := Link.deliver_eq_some hdeliver
  obtain ⟨-, hcall⟩ := Option.ite_none_right_eq_some.mp hs
  have hsame := LatencySender.hookSender_sending hcall
  refine ⟨h.there, h.back.deliver hdeliver, ?_, ?_, h.receiver, ?_, h.single, ?_⟩
  · rw [hsent]
    exact h.echoed
  · rw [hsent]
    exact h.errors
  · rw [harrived]
    exact h.sender.hook hcall
  · change sender.phase ≠ .ended → s.there.sent = packetsOf c sender.pushed
    rw [hsame.phase, hsame.pushed]
    exact h.pushed

/-- Every step keeps the account. -/
theorem Accounted.step {e : Event} {s' : State} (h : Accounted c s)
    (hsingle : ∀ frame, ∀ payload ∈ c.packetize frame, c.packetize payload = [payload])
    (hs : Echo.step c s e = some s') : Accounted c s' := by
  cases e with
  | skip =>
    obtain ⟨sender, hsender, rfl⟩ := Option.map_eq_some_iff.mp hs
    exact h.loop hsender (.inl rfl)
  | record now now' =>
    obtain ⟨sender, hsender, rfl⟩ := Option.map_eq_some_iff.mp hs
    exact h.loop hsender (.inr ⟨now, now', rfl⟩)
  | push ok n now =>
    obtain ⟨frame, hframe, hs⟩ := Option.bind_eq_some_iff.mp hs
    obtain ⟨bytes, hbytes, hs⟩ := Option.bind_eq_some_iff.mp hs
    obtain ⟨sender, hsender, hs⟩ := Option.bind_eq_some_iff.mp hs
    obtain rfl := Option.some.inj hs
    exact h.push hsingle hframe (toOption_eq_some_iff.mp hbytes) hsender
  | echo i ok n =>
    obtain ⟨⟨p, there⟩, hdeliver, hs⟩ := Option.bind_eq_some_iff.mp hs
    obtain ⟨receiver, hreceiver, hs⟩ := Option.bind_eq_some_iff.mp hs
    obtain rfl := Option.some.inj hs
    exact h.echo hdeliver hreceiver
  | hook i now now' now'' =>
    obtain ⟨⟨p, back⟩, hdeliver, hs⟩ := Option.bind_eq_some_iff.mp hs
    obtain ⟨sender, hsender, hs⟩ := Option.bind_eq_some_iff.mp hs
    obtain rfl := Option.some.inj hs
    exact h.hook hdeliver hsender
  | look =>
    obtain ⟨receiver, hreceiver, rfl⟩ := Option.map_eq_some_iff.mp hs
    obtain ⟨-, hlook⟩ := Option.ite_none_right_eq_some.mp hreceiver
    obtain rfl := Option.some.inj hlook
    refine { h with receiver := LatencyReceiver.look_counts h.receiver, errors := ?_ }
    have herrors : (LatencyReceiver.look s.receiver).errors = s.receiver.errors := by
      unfold LatencyReceiver.look
      split_ifs <;> rfl
    change _ ≤ _ + (LatencyReceiver.look s.receiver).errors
    rw [herrors]
    exact h.errors
  | loseThere i =>
    obtain ⟨there, hdrop, rfl⟩ := Option.map_eq_some_iff.mp hs
    obtain ⟨x, -, -, harrived, hsent⟩ := Link.drop_eq_some hdrop
    obtain ⟨hthere, hback, hechoed, herrors, hreceiver, hsender, hsingles, hpushed⟩ := h
    rw [← harrived] at hechoed herrors hreceiver
    rw [← hsent] at hsingles hpushed
    exact ⟨hthere.drop hdrop, hback, hechoed, herrors, hreceiver, hsender, hsingles, hpushed⟩
  | loseBack i =>
    obtain ⟨back, hdrop, rfl⟩ := Option.map_eq_some_iff.mp hs
    obtain ⟨x, -, -, harrived, hsent⟩ := Link.drop_eq_some hdrop
    obtain ⟨hthere, hback, hechoed, herrors, hreceiver, hsender, hsingles, hpushed⟩ := h
    rw [← hsent] at hechoed herrors
    rw [← harrived] at hsender
    exact ⟨hthere, hback.drop hdrop, hechoed, herrors, hreceiver, hsender, hsingles, hpushed⟩

/-- What has come back has been sent. -/
theorem Accounted.arrived_subperm (h : Accounted c s) : s.back.arrived <+~ s.there.sent :=
  h.back.arrived_subperm.trans (h.echoed.subperm.trans h.there.arrived_subperm)

/-- When nothing is lost or under way and every echo has been sent, all has come back. -/
theorem Accounted.perm_of_quiet (h : Accounted c s) (hthere : s.there.Quiet)
    (hback : s.back.Quiet) (herrors : s.receiver.errors = 0) :
    s.back.arrived ~ s.there.arrived ∧ s.there.arrived ~ s.there.sent := by
  refine ⟨?_, h.there.perm_of_quiet hthere⟩
  have hall : s.back.sent = s.there.arrived := by
    apply h.echoed.eq_of_length_le
    have hle := h.errors
    rw [herrors] at hle
    exact hle
  rw [← hall]
  exact h.back.perm_of_quiet hback

end Steps

/-! ## Any run -/

/-- In any run, whatever is lost, reordered or fails: the receiver has counted no more packets
than the sender has sent, and the sender no more than the receiver; what has come back are
packets of the sender's pushes.  For HEVC this holds of each kind of packet.  When nothing is
lost or under way and every echo has been sent, all three numbers are the same.  Until a push
fails, what has been sent are the packets of the frames that have been pushed. -/
theorem echo_accounted {c : Setup} {map : V3c.V3cFileMap} {chunkSizes : List Nat}
    {evs : List Event} {s : State}
    (hsingle : ∀ frame, ∀ payload ∈ c.packetize frame, c.packetize payload = [payload])
    (hrun : Run (step c) (initial c map chunkSizes) evs s) :
    s.back.arrived <+~ s.there.sent ∧
      s.sender.totalFramesReceived ≤ s.receiver.totalFramesReceived ∧
      s.receiver.totalFramesReceived ≤ s.there.sent.length ∧
      (c.format = .hevc → ∀ kind,
        senderTally s.sender kind ≤ receiverTally s.receiver kind ∧
          receiverTally s.receiver kind ≤ countKind .hevc kind s.there.sent) ∧
      (s.there.Quiet → s.back.Quiet → s.receiver.errors = 0 →
        s.sender.totalFramesReceived = s.there.sent.length ∧
          (c.format = .hevc → ∀ kind,
            senderTally s.sender kind = countKind .hevc kind s.there.sent ∧
              receiverTally s.receiver kind = countKind .hevc kind s.there.sent)) ∧
      (s.sender.phase ≠ .ended → s.there.sent = packetsOf c s.sender.pushed) := by
  have h : Accounted c s := hrun.invariant (I := fun _ s => Accounted c s)
    (accounted_initial c map chunkSizes) fun _ _ _ _ _ h hs => h.step hsingle hs
  have hback := h.back.arrived_subperm.trans h.echoed.subperm
  have hreceived : s.receiver.totalFramesReceived = s.there.arrived.length := by
    rw [h.receiver.total, payloads, List.length_map]
  have hsender (hhevc : c.format = .hevc) (kind : NaluKind) :
      senderTally s.sender kind = countKind .hevc kind s.back.arrived :=
    SenderCounts.tally (hhevc ▸ h.sender) kind
  refine ⟨h.arrived_subperm, ?_, ?_, fun hhevc kind => ⟨?_, ?_⟩, ?_, h.pushed⟩
  · rw [h.sender.total, hreceived]
    exact hback.length_le
  · rw [hreceived]
    exact h.there.arrived_subperm.length_le
  · rw [hsender hhevc, receiverTally_eq h.receiver]
    exact hback.countP_le _
  · rw [receiverTally_eq h.receiver]
    exact h.there.countP_le _
  · intro hthere hquiet herrors
    obtain ⟨hsame, hall⟩ := h.perm_of_quiet hthere hquiet herrors
    refine ⟨?_, fun hhevc kind => ⟨?_, ?_⟩⟩
    · rw [h.sender.total]
      exact (hsame.trans hall).length_eq
    · rw [hsender hhevc]
      exact (hsame.trans hall).countP_eq _
    · rw [receiverTally_eq h.receiver]
      exact hall.countP_eq _

/-- A file with an inter and an intra frame, each of one packet. -/
def twoFrames : Setup where
  format := .hevc
  mem := [0, 0, 0, 1, 2, 0, 0, 0, 1, 38]
  packetize frame := [frame]

/-- Both frames come to the receiver, and the second is lost on its way back. -/
theorem echo_accounted_two :
    ∃ s, Run (step twoFrames) (initial twoFrames {} [5, 5])
        [.record 0 0, .push true 0 0, .record 33000000 33000000, .echo 0 true 0,
          .push true 0 33000000, .hook 0 34000000 34000000 34000000, .look, .echo 0 true 0,
          .loseBack 0] s ∧
      senderTally s.sender .intra ≤ receiverTally s.receiver .intra ∧
      receiverTally s.receiver .intra ≤ countKind .hevc .intra s.there.sent ∧
      s.there.sent = packetsOf twoFrames s.sender.pushed := by
  obtain ⟨s, hrun, hphase⟩ : ∃ s, Run (step twoFrames) (initial twoFrames {} [5, 5])
      [.record 0 0, .push true 0 0, .record 33000000 33000000, .echo 0 true 0,
        .push true 0 33000000, .hook 0 34000000 34000000 34000000, .look, .echo 0 true 0,
        .loseBack 0] s ∧ s.sender.phase ≠ .ended := ⟨_, run_get (by decide), by decide⟩
  have hsingle (frame : List UInt8) :
      ∀ payload ∈ twoFrames.packetize frame, twoFrames.packetize payload = [payload] :=
    List.forall_mem_singleton.mpr rfl
  obtain ⟨-, -, -, hkinds, -, hsent⟩ := echo_accounted hsingle hrun
  obtain ⟨hsender, hreceiver⟩ := hkinds rfl .intra
  exact ⟨s, hrun, hsender, hreceiver, hsent hphase⟩

end RtpBenchmarks.Uvgrtp.Echo
