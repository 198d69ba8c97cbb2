import RtpBenchmarks.Foundation.Link
import RtpBenchmarks.Uvgrtp.Sender
import RtpBenchmarks.Uvgrtp.Statistics

set_option autoImplicit false

/-!
# The uvgRTP test (`uvgrtp/sender.cc`, `uvgrtp/receiver.cc`)

Each thread of the sender sends over a link of its own to the thread of the receiver with the same
number.  A link may reorder packets and lose some.  The receiver counts the packets of two streams
in one slot.

`packetize` is what `push_frame` makes of a frame: the payloads of the packets, as the hook of the
receiver gets them.  A push that fails may have sent some of them.
-/

namespace RtpBenchmarks.Uvgrtp.Throughput

open RtpBenchmarks.Foundation
open RtpBenchmarks.Results (SendResult)
open RtpBenchmarks.Util (Slice)
open RtpBenchmarks.Uvgrtp.Sender (Job)
open scoped List

/-! ## The system -/

/-- The file in memory and the time for a frame, the library, and how many threads each side has. -/
structure Setup where
  bytes : List UInt8
  period : Nat
  packetize : List UInt8 → List (List UInt8)
  nthreads : Nat

def Setup.sender (c : Setup) : Sender.Setup where
  library := .uvgrtp
  bytes := c.bytes
  period := c.period

/-- Both programs, and the link of each stream. -/
structure State where
  senders : Threads Sender.Thread SendResult
  receiver : ReceiverState
  links : Nat → Link (List UInt8)

/-- A step of a thread of the sender, of which `n` packets are sent if it is a push that fails; the
arrival of a packet, given by its place on the link; another step of a thread of the receiver; or
the loss of a packet. -/
inductive Event where
  | send (i : Nat) (action : Sender.Action) (n : Nat)
  | arrive (i k : Nat) (now now' : Int)
  | null (i : Nat) (now now' : Int)
  | install (i : Nat) (ok : Bool) (now : Int)
  | iterate (i : Nat) (now : Int)
  | cleanup (i : Nat)
  | lose (i k : Nat)
  deriving DecidableEq, Repr

/-- The bytes that are handed to `push_frame`. -/
def frameOf (c : Setup) (slice : Slice) : List UInt8 :=
  (c.bytes.drop slice.offset).take slice.size

/-- The packets of a step of a thread. -/
def packets (c : Setup) (t : Sender.Thread) (action : Sender.Action) (n : Nat) :
    Except MemFault (List (List UInt8)) :=
  match action, t.jobs with
  | .push ok _, job :: _ => do
    let slice := job.slice t.bytesSent
    let frame ← loadBytes c.bytes slice.offset slice.size
    return if ok then c.packetize frame else (c.packetize frame).take n
  | _, _ => return []

/-- Another link for a stream. -/
def State.setLink (s : State) (i : Nat) (link : Link (List UInt8)) : State :=
  { s with links := Function.update s.links i link }

/-- A step of the system; `none` where it cannot be taken. -/
def step (c : Setup) (s : State) : Event → Option State
  | .send i action n => do
    let t ← s.senders.threads[i]?
    let sent ← (packets c t action n).toOption
    let senders ← Sender.step c.sender s.senders (i, action)
    some ({ s with senders }.setLink i ((s.links i).send sent))
  | .arrive i k now now' => do
    let (payload, link) ← (s.links i).deliver k
    let receiver ← Uvgrtp.step c.nthreads s.receiver (.hook i (some { payload }) now now')
    some ({ s with receiver }.setLink i link)
  | .null i now now' =>
    (Uvgrtp.step c.nthreads s.receiver (.hook i none now now')).map
      fun receiver => { s with receiver }
  | .install i ok now =>
    (Uvgrtp.step c.nthreads s.receiver (.install i ok now)).map fun receiver => { s with receiver }
  | .iterate i now =>
    (Uvgrtp.step c.nthreads s.receiver (.iterate i now)).map fun receiver => { s with receiver }
  | .cleanup i =>
    (Uvgrtp.step c.nthreads s.receiver (.cleanup i)).map fun receiver => { s with receiver }
  | .lose i k => ((s.links i).drop k).map fun link => s.setLink i link

/-- The state in which both programs start their threads. -/
def initial (c : Setup) (jobs : List Job) : State where
  senders := Sender.initial c.nthreads jobs
  receiver := Uvgrtp.initial
  links _ := {}

/-! ## The streams -/

/-- The packets of the frames that a thread has pushed. -/
def packetsOf (c : Setup) (pushed : List Sender.Pushed) : List (List UInt8) :=
  pushed.flatMap fun p => c.packetize (frameOf c p.slice)

/-- What has been sent on a stream are the packets of what its thread has pushed, but for some of
the last if that has failed. -/
structure Streamed (c : Setup) (s : State) : Prop where
  conserved : ∀ i, (s.links i).Conserved
  sent : ∀ i, ∀ t ∈ s.senders.threads[i]?, (s.links i).sent <+: packetsOf c t.pushed ∧
    (t.ended ≠ some .failed → (s.links i).sent = packetsOf c t.pushed)

section Streams

variable {c : Setup} {s s' : State} {i : Nat}

theorem State.setLink_links (s : State) (i : Nat) (link : Link (List UInt8)) (j : Nat) :
    (s.setLink i link).links j = if j = i then link else s.links j := by
  simp only [State.setLink, Function.update_apply]

theorem streamed_initial (c : Setup) (jobs : List Job) : Streamed c (initial c jobs) where
  conserved _ := Link.conserved_initial
  sent i t ht := by
    obtain rfl := List.eq_of_mem_replicate (List.mem_of_getElem? ht)
    exact ⟨List.nil_prefix, fun _ => rfl⟩

/-- What a step of a thread pushes, and what is sent of it. -/
theorem packetsOf_step {t t' : Sender.Thread} {action : Sender.Action} {n : Nat}
    {sent : List (List UInt8)} {out : List SendResult}
    (hs : t.step c.sender action = some (t', out)) (hsent : packets c t action n = .ok sent) :
    packetsOf c t.pushed ++ sent <+: packetsOf c t'.pushed ∧
      (t'.ended ≠ some .failed → packetsOf c t'.pushed = packetsOf c t.pushed ++ sent) := by
  obtain ⟨-, htook⟩ := Sender.took_of_step hs
  have hpush {job : Job} {jobs : List Job} {ok : Bool} {r : Sender.Readings}
      (hnext : t.jobs = job :: jobs) (hsent : packets c t (.push ok r) n = .ok sent) :
      sent = if ok then c.packetize (frameOf c (job.slice t.bytesSent))
        else (c.packetize (frameOf c (job.slice t.bytesSent))).take n := by
    simp only [packets, hnext, bind_eq_ok_iff] at hsent
    obtain ⟨frame, hframe, hsent⟩ := hsent
    unfold loadBytes at hframe
    split_ifs at hframe
    obtain rfl := Except.ok.inj hframe
    exact (Except.ok.inj hsent).symm
  cases htook with
  | begin now fresh | skip began next skipped | finish now began all =>
    obtain rfl := Except.ok.inj hsent
    rw [List.append_nil]
    exact ⟨List.prefix_rfl, fun _ => rfl⟩
  | fail began next kept library =>
    obtain rfl := hpush next hsent
    refine ⟨?_, fun hnot => absurd rfl hnot⟩
    rw [packetsOf, packetsOf, List.flatMap_append, List.flatMap_singleton]
    exact (List.prefix_append_right_inj _).mpr (List.take_prefix _ _)
  | push began next kept goes =>
    obtain rfl := goes rfl
    obtain rfl := hpush next hsent
    rw [packetsOf, packetsOf, List.flatMap_append, List.flatMap_singleton]
    exact ⟨List.prefix_rfl, fun _ => rfl⟩

/-- A step of a thread leaves the others as they are. -/
theorem next_threads {senders' : Threads Sender.Thread SendResult} {action : Sender.Action}
    {t : Sender.Thread} (ht : s.senders.threads[i]? = some t)
    (hs : Sender.step c.sender s.senders (i, action) = some senders') :
    ∃ t' out, t.step c.sender action = some (t', out) ∧ senders'.threads[i]? = some t' ∧
      ∀ j, j ≠ i → senders'.threads[j]? = s.senders.threads[j]? := by
  obtain ⟨before, u, behind, t', out, hthreads, hi, hstep, rfl⟩ := Threads.next_eq_some hs
  obtain rfl : before.length = i := hi
  rw [hthreads, List.getElem?_append_right (Nat.le_refl _), Nat.sub_self] at ht
  obtain rfl : u = t := Option.some.inj ht
  refine ⟨t', out, hstep, ?_, fun j hj => ?_⟩
  · rw [List.getElem?_append_right (Nat.le_refl _), Nat.sub_self]
    rfl
  · rw [hthreads, List.getElem?_append, List.getElem?_append]
    split_ifs with hlt
    · rfl
    · obtain ⟨k, hk⟩ : ∃ k, j - before.length = k + 1 := ⟨j - before.length - 1, by omega⟩
      rw [hk]
      rfl

/-- A step that sends nothing. -/
theorem Streamed.elsewhere (h : Streamed c s) (hsenders : s'.senders = s.senders)
    (hconserved : ∀ i, (s'.links i).Conserved) (hsent : ∀ i, (s'.links i).sent = (s.links i).sent) :
    Streamed c s' := by
  refine ⟨hconserved, fun i t ht => ?_⟩
  rw [hsenders] at ht
  rw [hsent]
  exact h.sent i t ht

theorem Streamed.setLink (h : Streamed c s) {link : Link (List UInt8)} (hlink : link.Conserved)
    (hsent : link.sent = (s.links i).sent) (hsenders : s'.senders = s.senders)
    (hlinks : s'.links = (s.setLink i link).links) : Streamed c s' := by
  refine h.elsewhere hsenders (fun j => ?_) fun j => ?_
  · rw [hlinks, State.setLink_links]
    split_ifs
    · exact hlink
    · exact h.conserved j
  · rw [hlinks, State.setLink_links]
    split_ifs with hj
    · rw [hj, hsent]
    · rfl

theorem Streamed.send {action : Sender.Action} {n : Nat} {t : Sender.Thread}
    {sent : List (List UInt8)} {senders : Threads Sender.Thread SendResult} (h : Streamed c s)
    (ht : s.senders.threads[i]? = some t) (hsent : packets c t action n = .ok sent)
    (hs : Sender.step c.sender s.senders (i, action) = some senders) :
    Streamed c ({ s with senders }.setLink i ((s.links i).send sent)) := by
  obtain ⟨t', out, hstep, ht', hothers⟩ := next_threads ht hs
  obtain ⟨hbegins, heq⟩ := packetsOf_step hstep hsent
  have hrunning : t.ended ≠ some .failed := by
    rw [(Sender.took_of_step hstep).1]
    rintro ⟨⟩
  have hall := (h.sent i t ht).2 hrunning
  constructor
  · intro j
    rw [State.setLink_links]
    split_ifs with hj
    · exact (h.conserved i).send sent
    · exact h.conserved j
  · intro j u hu
    rw [State.setLink_links]
    by_cases hj : j = i
    · subst hj
      obtain rfl : t' = u := Option.some.inj (ht'.symm.trans hu)
      rw [if_pos rfl]
      change (s.links j).sent ++ sent <+: _ ∧ (_ → (s.links j).sent ++ sent = _)
      rw [hall]
      exact ⟨hbegins, fun hnot => (heq hnot).symm⟩
    · rw [if_neg hj]
      exact h.sent j u ((hothers j hj).symm.trans hu)

theorem Streamed.step {e : Event} (h : Streamed c s) (hs : Throughput.step c s e = some s') :
    Streamed c s' := by
  cases e with
  | send i action n =>
    obtain ⟨t, ht, hs⟩ := Option.bind_eq_some_iff.mp hs
    obtain ⟨sent, hsent, hs⟩ := Option.bind_eq_some_iff.mp hs
    obtain ⟨senders, hsenders, hs⟩ := Option.bind_eq_some_iff.mp hs
    obtain rfl := Option.some.inj hs
    exact h.send ht (toOption_eq_some_iff.mp hsent) hsenders
  | arrive i k now now' =>
    obtain ⟨⟨payload, link⟩, hdeliver, hs⟩ := Option.bind_eq_some_iff.mp hs
    obtain ⟨receiver, -, hs⟩ := Option.bind_eq_some_iff.mp hs
    obtain rfl := Option.some.inj hs
    obtain ⟨-, -, -, hsent⟩ := Link.deliver_eq_some hdeliver
    exact h.setLink ((h.conserved i).deliver hdeliver) hsent rfl rfl
  | lose i k =>
    obtain ⟨link, hdrop, rfl⟩ := Option.map_eq_some_iff.mp hs
    obtain ⟨-, -, -, -, hsent⟩ := Link.drop_eq_some hdrop
    exact h.setLink ((h.conserved i).drop hdrop) hsent rfl rfl
  | null | install | iterate | cleanup =>
    obtain ⟨receiver, -, rfl⟩ := Option.map_eq_some_iff.mp hs
    exact h.elsewhere rfl h.conserved fun _ => rfl

end Streams

/-! ## The slots -/

/-- The bytes of some packets. -/
def payloadBytes (packets : List (List UInt8)) : Nat :=
  (packets.map List.length).sum

/-- What has arrived on the two streams of a slot. -/
def arrived (s : State) (tid : Nat) : List (List UInt8) :=
  (s.links (2 * tid)).arrived ++ (s.links (2 * tid + 1)).arrived

/-- What has been sent on the two streams of a slot. -/
def sentTo (s : State) (tid : Nat) : List (List UInt8) :=
  (s.links (2 * tid)).sent ++ (s.links (2 * tid + 1)).sent

/-- No line tells more than its slot. -/
def LinesWithin (r : ReceiverState) : Prop :=
  ∀ line ∈ r.results, line.packets ≤ (r.threadInfo (tidOf line.thread)).pkts ∧
    line.bytes ≤ (r.threadInfo (tidOf line.thread)).bytes

/-- A slot counts what has arrived on its streams. -/
structure Counted (s : State) : Prop where
  pkts : ∀ tid, (s.receiver.threadInfo tid).pkts = (arrived s tid).length
  bytes : ∀ tid, (s.receiver.threadInfo tid).bytes = payloadBytes (arrived s tid)
  lines : LinesWithin s.receiver

theorem counted_initial (c : Setup) (jobs : List Job) : Counted (initial c jobs) where
  pkts _ := rfl
  bytes _ := rfl
  lines line h := by cases h

theorem payloadBytes_append (xs ys : List (List UInt8)) :
    payloadBytes (xs ++ ys) = payloadBytes xs + payloadBytes ys := by
  rw [payloadBytes, List.map_append, List.sum_append]
  rfl

section Slots

variable {c : Setup} {s s' : State} {r r' : ReceiverState}

/-- The line of a slot is within it, and the others stay so. -/
theorem LinesWithin.append (h : LinesWithin r) {lines : List ResultLine}
    (hresults : r'.results = r.results ++ lines)
    (hlines : ∀ line ∈ lines, line = (r'.threadInfo (tidOf line.thread)).line line.thread)
    (hgrow : ∀ tid, (r.threadInfo tid).pkts ≤ (r'.threadInfo tid).pkts ∧
      (r.threadInfo tid).bytes ≤ (r'.threadInfo tid).bytes) : LinesWithin r' := by
  intro line hline
  rw [hresults] at hline
  rcases List.mem_append.mp hline with hold | hnew
  · obtain ⟨hpackets, hbytes⟩ := h line hold
    obtain ⟨hpkts, hgrown⟩ := hgrow (tidOf line.thread)
    exact ⟨hpackets.trans hpkts, hbytes.trans hgrown⟩
  · have hof := hlines line hnew
    have hpackets : line.packets = (r'.threadInfo (tidOf line.thread)).pkts :=
      congrArg ResultLine.packets hof
    have hbytes : line.bytes = (r'.threadInfo (tidOf line.thread)).bytes :=
      congrArg ResultLine.bytes hof
    exact ⟨hpackets.le, hbytes.le⟩

theorem LinesWithin.step {e : Uvgrtp.Event} (h : LinesWithin r)
    (hs : Steps c.nthreads r e r') : LinesWithin r' := by
  cases hs with
  | installed | failed | progressed | idled | ready | cleaned => exact h
  | @timedOut i now prev upd hi hp hn =>
    refine h.append rfl ?_ fun tid => ⟨Nat.le_refl _, Nat.le_refl _⟩
    intro line hline
    obtain rfl := List.mem_singleton.mp hline
    rfl
  | @called i frame now now' hi hp =>
    refine h.append (hook_results r i frame now now') ?_ fun tid => ?_
    · intro line hline
      split_ifs at hline
      · obtain rfl := List.mem_singleton.mp hline
        rfl
      · cases hline
    · rw [hook_pkts, hook_bytes]
      exact ⟨Nat.le_add_right _ _, Nat.le_add_right _ _⟩

/-- A step without a packet leaves the slots as they are. -/
theorem counts_of_steps {e : Uvgrtp.Event} (he : e.arrival = none)
    (hs : Steps c.nthreads r e r') (tid : Nat) :
    (r'.threadInfo tid).pkts = (r.threadInfo tid).pkts ∧
      (r'.threadInfo tid).bytes = (r.threadInfo tid).bytes := by
  cases hs with
  | installed | failed | progressed | timedOut | idled | ready | cleaned => exact ⟨rfl, rfl⟩
  | @called i frame now now' hi hp =>
    obtain rfl : frame = none := by simpa [Event.arrival] using he
    rw [hook_pkts, hook_bytes]
    simp

/-- A packet that arrives on a stream counts for its slot. -/
theorem arrived_setLink {f : List (List UInt8) → Nat} (hf : ∀ xs ys, f (xs ++ ys) = f xs + f ys)
    {i : Nat} {link : Link (List UInt8)} {payload : List UInt8}
    (hlink : link.arrived = (s.links i).arrived ++ [payload]) (tid : Nat) :
    f (arrived (s.setLink i link) tid) =
      f (arrived s tid) + if tid = tidOf i then f [payload] else 0 := by
  rw [arrived, arrived, State.setLink_links, State.setLink_links, tidOf]
  by_cases heven : 2 * tid = i
  · rw [if_pos heven, if_neg (by omega), if_pos (by omega), hlink, heven, hf, hf, hf]
    omega
  · by_cases hodd : 2 * tid + 1 = i
    · rw [if_neg heven, if_pos hodd, if_pos (by omega), hlink, hodd, hf, hf, hf]
      omega
    · rw [if_neg heven, if_neg hodd, if_neg (by omega)]
      exact (Nat.add_zero _).symm

theorem Counted.arrive {i k : Nat} {now now' : Int} {payload : List UInt8}
    {link : Link (List UInt8)} {receiver : ReceiverState} (h : Counted s)
    (hdeliver : (s.links i).deliver k = some (payload, link))
    (hs : Steps c.nthreads s.receiver (.hook i (some { payload }) now now') receiver) :
    Counted ({ s with receiver }.setLink i link) := by
  obtain ⟨-, harrived, -⟩ := Link.deliver_eq_some hdeliver
  have hlines := h.lines.step hs
  cases hs with
  | called hi hp =>
    refine ⟨fun tid => ?_, fun tid => ?_, hlines⟩
    · have hcount := arrived_setLink (s := s) (f := List.length)
        (fun _ _ => List.length_append) harrived tid
      refine (hook_pkts _ _ _ _ _ _).trans (Eq.trans ?_ hcount.symm)
      rw [h.pkts]
      simp
    · have hcount := arrived_setLink (s := s) (f := payloadBytes) payloadBytes_append harrived tid
      refine (hook_bytes _ _ _ _ _ _).trans (Eq.trans ?_ hcount.symm)
      rw [h.bytes]
      simp [payloadBytes]

/-- A step of the receiver without a packet. -/
theorem Counted.other {e : Uvgrtp.Event} {receiver : ReceiverState} (h : Counted s)
    (he : e.arrival = none) (hs : Steps c.nthreads s.receiver e receiver) :
    Counted { s with receiver } := by
  refine ⟨fun tid => ?_, fun tid => ?_, h.lines.step hs⟩
  · exact (counts_of_steps he hs tid).1.trans (h.pkts tid)
  · exact (counts_of_steps he hs tid).2.trans (h.bytes tid)

/-- A step on a link that nothing arrives with. -/
theorem Counted.setLink (h : Counted s) {i : Nat} (link : Link (List UInt8))
    (hlink : link.arrived = (s.links i).arrived) (hreceiver : s'.receiver = s.receiver)
    (hlinks : s'.links = (s.setLink i link).links) : Counted s' := by
  have hsame (tid : Nat) : arrived s' tid = arrived s tid := by
    rw [arrived, arrived, hlinks, State.setLink_links, State.setLink_links]
    split_ifs with heven hodd hodd
    · omega
    · rw [hlink, heven]
    · rw [hlink, hodd]
    · rfl
  refine ⟨fun tid => ?_, fun tid => ?_, hreceiver ▸ h.lines⟩
  · rw [hreceiver, hsame, h.pkts]
  · rw [hreceiver, hsame, h.bytes]

theorem Counted.step {e : Event} (h : Counted s) (hs : Throughput.step c s e = some s') :
    Counted s' := by
  cases e with
  | send i action n =>
    obtain ⟨t, ht, hs⟩ := Option.bind_eq_some_iff.mp hs
    obtain ⟨sent, hsent, hs⟩ := Option.bind_eq_some_iff.mp hs
    obtain ⟨senders, hsenders, hs⟩ := Option.bind_eq_some_iff.mp hs
    obtain rfl := Option.some.inj hs
    exact h.setLink ((s.links i).send sent) rfl rfl rfl
  | arrive i k now now' =>
    obtain ⟨⟨payload, link⟩, hdeliver, hs⟩ := Option.bind_eq_some_iff.mp hs
    obtain ⟨receiver, hreceiver, hs⟩ := Option.bind_eq_some_iff.mp hs
    obtain rfl := Option.some.inj hs
    exact h.arrive hdeliver (steps_of_step hreceiver)
  | lose i k =>
    obtain ⟨link, hdrop, rfl⟩ := Option.map_eq_some_iff.mp hs
    obtain ⟨-, -, -, harrived, -⟩ := Link.drop_eq_some hdrop
    exact h.setLink _ harrived rfl rfl
  | null i now now' =>
    obtain ⟨receiver, hreceiver, rfl⟩ := Option.map_eq_some_iff.mp hs
    exact h.other rfl (steps_of_step hreceiver)
  | install i ok now =>
    obtain ⟨receiver, hreceiver, rfl⟩ := Option.map_eq_some_iff.mp hs
    exact h.other rfl (steps_of_step hreceiver)
  | iterate i now =>
    obtain ⟨receiver, hreceiver, rfl⟩ := Option.map_eq_some_iff.mp hs
    exact h.other rfl (steps_of_step hreceiver)
  | cleanup i =>
    obtain ⟨receiver, hreceiver, rfl⟩ := Option.map_eq_some_iff.mp hs
    exact h.other rfl (steps_of_step hreceiver)

end Slots

/-! ## The test -/

theorem payloadBytes_le {xs ys : List (List UInt8)} (h : xs <+~ ys) :
    payloadBytes xs ≤ payloadBytes ys := by
  obtain ⟨zs, hperm, hsub⟩ := h
  rw [payloadBytes, payloadBytes, ← (hperm.map List.length).sum_eq]
  exact (hsub.map List.length).sum_le_sum fun _ _ => Nat.zero_le _

/-- Two threads that send two bytes in packets of one. -/
def twoStreams : Setup where
  bytes := [1, 2]
  period := 10
  packetize frame := frame.map ([·])
  nthreads := 2

/-- A packet of the second stream is lost; the first thread of the receiver writes a line. -/
def lossyRun : List Event :=
  [.install 0 true 0, .install 1 true 0, .send 0 (.begin 0) 0, .send 1 (.begin 0) 0,
    .send 0 (.push true ⟨0, 0, 10000⟩) 0, .send 1 (.push true ⟨500, 500, 10500⟩) 0, .lose 1 0,
    .arrive 0 1 2000 2000, .arrive 1 0 3000 3000, .iterate 0 10000, .send 0 (.finish 20000) 0,
    .iterate 0 200010000]

end RtpBenchmarks.Uvgrtp.Throughput
