import RtpBenchmarks.Foundation.Link
import RtpBenchmarks.Uvgrtp.VpccLatencySender
import RtpBenchmarks.Uvgrtp.VpccLoop

set_option autoImplicit false

/-!
# The V-PCC latency test (`uvgrtp/vpcc_latency_sender.cc`, `uvgrtp/vpcc_latency_receiver.cc`)

Each of the four streams goes from the sender to the receiver and back, over links that may
reorder and lose NAL units.  When the four threads of the sender are done, it compares how
many NAL units of each stream it has logged as sent and as received, and writes zeros where
they differ.

So a loss shows unless it is made up for, which on the atlas stream a NAL unit can do that
only the hook logs.
-/

namespace RtpBenchmarks.Uvgrtp.VpccEcho

open RtpBenchmarks.Foundation
open RtpBenchmarks.Uvgrtp.VpccLatencySender
open RtpBenchmarks.V3c (NalInfo RtpFrame V3cUnitInfo V3cUnitType)
open scoped List

/-! ## The receiver -/

/-- The hooks of the receiver, which count the frames of their stream. -/
def echoHook : VpccLoop.Hook Nat (List UInt8) where
  run count _ := count + 1
  sets _ := true

/-! ## A stream -/

/-- The file in memory, and its units. -/
structure Setup where
  bytes : List UInt8
  units : V3cUnitType → List V3cUnitInfo

/-- The NAL units that are to be sent on a stream. -/
def Setup.nals (c : Setup) (t : V3cUnitType) : List NalInfo :=
  (c.units t).flatMap (·.nalInfos)

/-- A stream: what its thread has still to send, the thread, the times that the hook has
logged, and the links. -/
structure Stream where
  queue : List NalInfo
  sender : SenderState := {}
  recv : List Int := []
  there : Link (List UInt8) := {}
  back : Link (List UInt8) := {}
  deriving DecidableEq, Repr

namespace Stream

/-- An iteration of `sender_func`; `out` is whether the NAL unit gets onto the link, for the
thread goes on when `push_frame` fails. -/
def send (bytes : List UInt8) (t : V3cUnitType) (st : Stream) (out : Bool) (now : Int) :
    Option Stream :=
  match st.queue with
  | [] => none
  | n :: rest => do
    let sender ← (sendNal t bytes (fun _ => now) st.sender n).toOption
    let frame ← (loadBytes bytes n.location n.size).toOption
    some { st with queue := rest, sender, there := st.there.send (if out then [frame] else []) }

/-- A NAL unit comes to the receiver, which sends it back; `out` is as before. -/
def echo (st : Stream) (i : Nat) (out : Bool) : Option (List UInt8 × Stream) :=
  (st.there.deliver i).map fun (frame, there) =>
    (frame, { st with there, back := st.back.send (if out then [frame] else []) })

/-- A NAL unit comes back. -/
def hook (t : V3cUnitType) (st : Stream) (i : Nat) (now : Int) : Option Stream := do
  let (frame, back) ← st.back.deliver i
  let recv ← (hookOf t st.recv { payload := frame } now).toOption
  some { st with recv, back }

end Stream

/-! ## The system -/

/-- The streams, the receiver, and whether the sender has written zeros for frame loss. -/
structure State where
  streams : V3cUnitType → Stream
  receiver : VpccLoop.State Nat := { results := fun _ => 0 }
  loss : Option Bool := none

/-- A step of a stream, a look of the receiver or the destruction of one of its streams, or the
check at the end of `sender`. -/
inductive Event where
  | send (t : V3cUnitType) (out : Bool) (now : Int)
  | echo (t : V3cUnitType) (i : Nat) (out : Bool)
  | hook (t : V3cUnitType) (i : Nat) (now : Int)
  | loseThere (t : V3cUnitType) (i : Nat)
  | loseBack (t : V3cUnitType) (i : Nat)
  | look
  | destroy
  | check
  deriving DecidableEq, Repr

def State.set (s : State) (t : V3cUnitType) (st : Stream) : State :=
  { s with streams := Function.update s.streams t st }

/-- The end of `sender`, where all threads are done. -/
def check (s : State) : Option State :=
  if ∀ t ∈ VpccLoop.streams, (s.streams t).queue = [] then
    some { s with
      loss := some (frameLoss (fun t => (s.streams t).sender.sendTimes)
        fun t => (s.streams t).recv) }
  else none

/-- A step of the system; `none` where it cannot be taken. -/
def step (c : Setup) (s : State) : Event → Option State
  | .send t out now =>
    if t.hasStream ∧ s.loss = none then ((s.streams t).send c.bytes t out now).map (s.set t)
    else none
  | .echo t i out => do
    let (frame, st) ← (s.streams t).echo i out
    let receiver ← VpccLoop.step echoHook s.receiver (.call t frame)
    some { s.set t st with receiver }
  | .hook t i now =>
    if t.hasStream ∧ s.loss = none then ((s.streams t).hook t i now).map (s.set t) else none
  | .loseThere t i =>
    ((s.streams t).there.drop i).map fun there => s.set t { s.streams t with there }
  | .loseBack t i =>
    ((s.streams t).back.drop i).map fun back => s.set t { s.streams t with back }
  | .look => (VpccLoop.step echoHook s.receiver .look).map fun receiver => { s with receiver }
  | .destroy =>
    (VpccLoop.step echoHook s.receiver .destroy).map fun receiver => { s with receiver }
  | .check => if s.loss = none then check s else none

/-- The state before the threads start. -/
def initial (c : Setup) : State :=
  { streams := fun t => { queue := c.nals t } }

/-! ## What is logged -/

/-- A NAL unit for which the thread logs a time. -/
def isSendLogged (t : V3cUnitType) (frame : List UInt8) : Bool :=
  !isParamSet t (frameType frame)

/-- A NAL unit for which the hook logs a time. -/
def isRecvLogged (t : V3cUnitType) (frame : List UInt8) : Bool :=
  hookLogs t (frameType frame)

/-- A NAL unit of the atlas stream for which only the hook logs a time. -/
def isStray (t : V3cUnitType) (frame : List UInt8) : Bool :=
  decide (t = .ad ∧ 32 ≤ frameType frame ∧ frameType frame ≤ 34)

/-- What the hook logs are what the thread logs, and the stray ones. -/
theorem countP_isRecvLogged (t : V3cUnitType) (frames : List (List UInt8)) :
    frames.countP (isRecvLogged t) =
      frames.countP (isSendLogged t) + frames.countP (isStray t) := by
  induction frames with
  | nil => rfl
  | cons frame frames ih =>
    have hstray : isStray t frame = true → isSendLogged t frame = false := by
      intro h
      rw [isSendLogged, isParamSet_of_video t (of_decide_eq_true h).2]
      rfl
    have hlogged : isRecvLogged t frame = (isSendLogged t frame || isStray t frame) :=
      hookLogs_eq t (frameType frame)
    rw [List.countP_cons, List.countP_cons, List.countP_cons, ih, hlogged]
    cases hsend : isSendLogged t frame with
    | false =>
      rw [Bool.false_or]
      simp only [Bool.false_eq_true, if_false]
      omega
    | true =>
      have hnot : isStray t frame = false := by
        rw [← Bool.not_eq_true]
        intro h
        cases (hstray h).symm.trans hsend
      rw [hnot]
      simp only [Bool.or_false, if_true, Bool.false_eq_true, if_false]
      omega

/-! ## What a stream keeps -/

/-- What is known of a stream: its thread has pushed the first NAL units and logged its times,
what comes back has been sent, and the hook has logged it. -/
structure Kept (c : Setup) (t : V3cUnitType) (st : Stream) : Prop where
  inFile : ∀ n ∈ st.queue, InFile c.bytes n
  all : st.sender.pushed ++ st.queue.map (slice c.bytes) = (c.nals t).map (slice c.bytes)
  times : st.sender.sendTimes.length = st.sender.pushed.countP (isSendLogged t)
  sent : st.there.sent <+ st.sender.pushed
  there : st.there.Conserved
  echoed : st.back.sent <+ st.there.arrived
  back : st.back.Conserved
  recv : st.recv.length = st.back.arrived.countP (isRecvLogged t)

theorem kept_initial (c : Setup) {t : V3cUnitType} (h : ∀ n ∈ c.nals t, InFile c.bytes n) :
    Kept c t { queue := c.nals t } where
  inFile := h
  all := rfl
  times := rfl
  sent := List.Sublist.slnil
  there := Link.conserved_initial
  echoed := List.Sublist.slnil
  back := Link.conserved_initial
  recv := rfl

namespace Kept

variable {c : Setup} {t : V3cUnitType} {st st' : Stream} {out : Bool} {now : Int} {i : Nat}

theorem sublist_of_out (out : Bool) (frame : List UInt8) :
    (if out then [frame] else []) <+ [frame] := by
  cases out with
  | true => exact List.Sublist.refl _
  | false => exact List.nil_sublist _

theorem send (h : Kept c t st) (hs : st.send c.bytes t out now = some st') :
    Kept c t st' ∧ st'.there.arrived = st.there.arrived := by
  unfold Stream.send at hs
  cases hqueue : st.queue with
  | nil =>
    rw [hqueue] at hs
    cases hs
  | cons n rest =>
    rw [hqueue] at hs
    obtain ⟨sender, hsender, hs⟩ := Option.bind_eq_some_iff.mp hs
    obtain ⟨frame, hframe, hs⟩ := Option.bind_eq_some_iff.mp hs
    obtain rfl := Option.some.inj hs
    have hin := h.inFile
    rw [hqueue] at hin
    obtain ⟨hn, hrest⟩ := List.forall_mem_cons.mp hin
    -- the thread has pushed the slice of this NAL unit, and that is what is sent
    obtain ⟨sender', hrun, hpushed, htimes⟩ := sendNal_ok t hn (fun _ => now) st.sender
    obtain rfl := Except.ok.inj ((toOption_eq_some_iff.mp hsender).symm.trans hrun)
    obtain rfl := Except.ok.inj ((toOption_eq_some_iff.mp hframe).symm.trans (loadBytes_of_le hn.2))
    refine ⟨⟨hrest, ?_, ?_, ?_, h.there.send _, h.echoed, h.back, h.recv⟩, rfl⟩
    · rw [hpushed, List.append_assoc, ← h.all, hqueue]
      rfl
    · rw [htimes, h.times, hpushed, List.countP_append, List.countP_singleton, isSendLogged]
      cases isParamSet t (frameType (slice c.bytes n)) <;> rfl
    · rw [hpushed]
      exact h.sent.append (sublist_of_out out _)

theorem echo {frame : List UInt8} (h : Kept c t st) (hs : st.echo i out = some (frame, st')) :
    Kept c t st' ∧ st'.there.arrived.length = st.there.arrived.length + 1 ∧
      st'.queue = st.queue ∧ st'.sender = st.sender ∧ st'.recv = st.recv := by
  obtain ⟨⟨frame', there⟩, hdeliver, heq⟩ := Option.map_eq_some_iff.mp hs
  cases heq
  obtain ⟨-, harrived, -, hsent⟩ := Link.deliver_eq_some hdeliver
  refine ⟨⟨h.inFile, h.all, h.times, ?_, h.there.deliver hdeliver, ?_, h.back.send _, h.recv⟩, ?_,
    rfl, rfl, rfl⟩
  · rw [hsent]
    exact h.sent
  · rw [harrived]
    exact h.echoed.append (sublist_of_out out _)
  · rw [harrived, List.length_append]
    rfl

theorem hook (h : Kept c t st) (ht : t.hasStream = true) (hs : st.hook t i now = some st') :
    Kept c t st' ∧ st'.there.arrived = st.there.arrived := by
  obtain ⟨⟨frame, back⟩, hdeliver, hs⟩ := Option.bind_eq_some_iff.mp hs
  obtain ⟨recv, hrecv, hs⟩ := Option.bind_eq_some_iff.mp hs
  obtain rfl := Option.some.inj hs
  obtain ⟨-, harrived, -, hsent⟩ := Link.deliver_eq_some hdeliver
  have hcall := toOption_eq_some_iff.mp hrecv
  rw [hookOf_eq ht] at hcall
  have hne : ({ payload := frame } : RtpFrame).payload ≠ [] := by
    rintro rfl
    cases hcall
  obtain ⟨recv', hcall', hlength⟩ := hook_ok (hookLogs t) hne st.recv now
  obtain rfl := Except.ok.inj (hcall.symm.trans hcall')
  refine ⟨⟨h.inFile, h.all, h.times, h.sent, h.there, ?_, h.back.deliver hdeliver, ?_⟩, rfl⟩
  · rw [hsent]
    exact h.echoed
  · rw [hlength, h.recv, harrived, List.countP_append, List.countP_singleton]
    rfl

theorem loseThere {there : Link (List UInt8)} (h : Kept c t st)
    (hs : st.there.drop i = some there) : Kept c t { st with there } := by
  obtain ⟨x, -, -, harrived, hsent⟩ := Link.drop_eq_some hs
  obtain ⟨hin, hall, htimes, hsub, hthere, hechoed, hback, hrecv⟩ := h
  rw [← hsent] at hsub
  rw [← harrived] at hechoed
  exact ⟨hin, hall, htimes, hsub, hthere.drop hs, hechoed, hback, hrecv⟩

theorem loseBack {back : Link (List UInt8)} (h : Kept c t st)
    (hs : st.back.drop i = some back) : Kept c t { st with back } := by
  obtain ⟨x, -, -, harrived, hsent⟩ := Link.drop_eq_some hs
  obtain ⟨hin, hall, htimes, hsub, hthere, hechoed, hback, hrecv⟩ := h
  rw [← hsent] at hechoed
  rw [← harrived] at hrecv
  exact ⟨hin, hall, htimes, hsub, hthere, hechoed, hback.drop hs, hrecv⟩

/-- What has come back has been pushed. -/
theorem arrived_subperm (h : Kept c t st) :
    st.back.arrived <+~ st.there.arrived ∧
      st.there.arrived <+~ (c.nals t).map (slice c.bytes) := by
  have hpushed : st.sender.pushed <+ (c.nals t).map (slice c.bytes) := by
    rw [← h.all]
    exact List.sublist_append_left _ _
  exact ⟨h.back.arrived_subperm.trans h.echoed.subperm,
    h.there.arrived_subperm.trans (h.sent.trans hpushed).subperm⟩

end Kept

/-! ## Any run -/

/-- What is known of the system; `check` has seen the streams as they are. -/
structure Sound (c : Setup) (s : State) : Prop where
  kept : ∀ t, t.hasStream = true → Kept c t (s.streams t)
  counted : ∀ t, s.receiver.results t = (s.streams t).there.arrived.length
  checked : ∀ loss, s.loss = some loss →
    (∀ t ∈ VpccLoop.streams, (s.streams t).queue = []) ∧
      loss = frameLoss (fun t => (s.streams t).sender.sendTimes) fun t => (s.streams t).recv

theorem sound_initial {c : Setup} (h : ∀ t, t.hasStream = true → ∀ n ∈ c.nals t, InFile c.bytes n) :
    Sound c (initial c) where
  kept t ht := kept_initial c (h t ht)
  counted _ := rfl
  checked _ h := by cases h

theorem set_self (s : State) (t : V3cUnitType) (st : Stream) : (s.set t st).streams t = st :=
  Function.update_self ..

theorem set_of_ne (s : State) {t u : V3cUnitType} (st : Stream) (h : u ≠ t) :
    (s.set t st).streams u = s.streams u :=
  Function.update_of_ne h ..

namespace Sound

variable {c : Setup} {s : State} {t : V3cUnitType} {st : Stream}

theorem kept_set (h : Sound c s) (hst : t.hasStream = true → Kept c t st) (u : V3cUnitType)
    (hu : u.hasStream = true) : Kept c u ((s.set t st).streams u) := by
  by_cases hut : u = t
  · subst hut
    rw [set_self]
    exact hst hu
  · rw [set_of_ne s st hut]
    exact h.kept u hu

/-- A step of the sender, before the check. -/
theorem set_sender (h : Sound c s) (hst : t.hasStream = true → Kept c t st)
    (hloss : s.loss = none) (hthere : st.there.arrived = (s.streams t).there.arrived) :
    Sound c (s.set t st) where
  kept := h.kept_set hst
  counted u := by
    change s.receiver.results u = _
    rw [h.counted u]
    by_cases hut : u = t
    · subst hut
      rw [set_self, hthere]
    · rw [set_of_ne s st hut]
  checked loss hsome := by
    change s.loss = some loss at hsome
    rw [hloss] at hsome
    cases hsome

/-- A step of a link. -/
theorem set_link {receiver : VpccLoop.State Nat} (h : Sound c s)
    (hst : t.hasStream = true → Kept c t st)
    (hcounted : ∀ u, receiver.results u = ((s.set t st).streams u).there.arrived.length)
    (hqueue : st.queue = (s.streams t).queue) (hsender : st.sender = (s.streams t).sender)
    (hrecv : st.recv = (s.streams t).recv) : Sound c { s.set t st with receiver } where
  kept := h.kept_set hst
  counted := hcounted
  checked loss hsome := by
    have hsame (u : V3cUnitType) : ((s.set t st).streams u).queue = (s.streams u).queue ∧
        ((s.set t st).streams u).sender = (s.streams u).sender ∧
        ((s.set t st).streams u).recv = (s.streams u).recv := by
      by_cases hut : u = t
      · subst hut
        rw [set_self]
        exact ⟨hqueue, hsender, hrecv⟩
      · rw [set_of_ne s st hut]
        exact ⟨rfl, rfl, rfl⟩
    obtain ⟨hqueues, hloss⟩ := h.checked loss hsome
    refine ⟨fun u hu => (hsame u).1.trans (hqueues u hu), hloss.trans ?_⟩
    congr 1
    · funext u
      exact congrArg SenderState.sendTimes (hsame u).2.1.symm
    · funext u
      exact (hsame u).2.2.symm

theorem counted_link (h : Sound c s) (hthere : st.there.arrived = (s.streams t).there.arrived)
    (u : V3cUnitType) : s.receiver.results u = ((s.set t st).streams u).there.arrived.length := by
  rw [h.counted u]
  by_cases hut : u = t
  · subst hut
    rw [set_self, hthere]
  · rw [set_of_ne s st hut]

/-- Every step keeps what is known. -/
theorem step {e : Event} {s' : State} (h : Sound c s) (hs : VpccEcho.step c s e = some s') :
    Sound c s' := by
  cases e with
  | send t out now =>
    obtain ⟨⟨ht, hloss⟩, hs⟩ := Option.ite_none_right_eq_some.mp hs
    obtain ⟨st, hsend, rfl⟩ := Option.map_eq_some_iff.mp hs
    obtain ⟨hkept, harrived⟩ := (h.kept t ht).send hsend
    exact h.set_sender (fun _ => hkept) hloss harrived
  | echo t i out =>
    obtain ⟨⟨frame, st⟩, hecho, hs⟩ := Option.bind_eq_some_iff.mp hs
    obtain ⟨receiver, hreceiver, hs⟩ := Option.bind_eq_some_iff.mp hs
    obtain rfl := Option.some.inj hs
    cases VpccLoop.took_of_step hreceiver with
    | call mem =>
      obtain ⟨hkept, harrived, hqueue, hsender, hrecv⟩ :=
        (h.kept t (VpccLoop.Phase.hasStream_of_mem mem)).echo hecho
      refine h.set_link (fun _ => hkept) (fun u => ?_) hqueue hsender hrecv
      by_cases hut : u = t
      · subst hut
        rw [set_self, harrived, ← h.counted u]
        exact Function.update_self ..
      · rw [set_of_ne s st hut, ← h.counted u]
        exact Function.update_of_ne hut ..
  | hook t i now =>
    obtain ⟨⟨ht, hloss⟩, hs⟩ := Option.ite_none_right_eq_some.mp hs
    obtain ⟨st, hhook, rfl⟩ := Option.map_eq_some_iff.mp hs
    obtain ⟨hkept, harrived⟩ := (h.kept t ht).hook ht hhook
    exact h.set_sender (fun _ => hkept) hloss harrived
  | loseThere t i =>
    obtain ⟨there, hdrop, rfl⟩ := Option.map_eq_some_iff.mp hs
    obtain ⟨x, -, -, harrived, -⟩ := Link.drop_eq_some hdrop
    exact h.set_link (fun ht => (h.kept t ht).loseThere hdrop) (h.counted_link harrived) rfl rfl rfl
  | loseBack t i =>
    obtain ⟨back, hdrop, rfl⟩ := Option.map_eq_some_iff.mp hs
    exact h.set_link (fun ht => (h.kept t ht).loseBack hdrop) (h.counted_link rfl) rfl rfl rfl
  | look | destroy =>
    obtain ⟨receiver, hreceiver, rfl⟩ := Option.map_eq_some_iff.mp hs
    cases VpccLoop.took_of_step hreceiver <;> exact ⟨h.kept, h.counted, h.checked⟩
  | check =>
    obtain ⟨-, hs⟩ := Option.ite_none_right_eq_some.mp hs
    obtain ⟨hqueues, hs⟩ := Option.ite_none_right_eq_some.mp hs
    obtain rfl := Option.some.inj hs
    refine ⟨h.kept, h.counted, fun loss hloss => ⟨hqueues, ?_⟩⟩
    exact (Option.some.inj hloss).symm

end Sound

/-- All NAL units of the stream for which the thread logs a time have come back. -/
def AllBack (c : Setup) (s : State) (t : V3cUnitType) : Prop :=
  (s.streams t).back.arrived.filter (isSendLogged t) ~
    ((c.nals t).map (slice c.bytes)).filter (isSendLogged t)

/-- What the hook of a stream has logged, when the thread is done. -/
theorem Kept.length_eq_iff {c : Setup} {t : V3cUnitType} {st : Stream} (h : Kept c t st)
    (hqueue : st.queue = []) :
    st.sender.sendTimes.length = st.recv.length ↔
      st.back.arrived.countP (isSendLogged t) + st.back.arrived.countP (isStray t) =
        ((c.nals t).map (slice c.bytes)).countP (isSendLogged t) := by
  have hall := h.all
  rw [hqueue, List.map_nil, List.append_nil] at hall
  rw [h.times, h.recv, countP_isRecvLogged, hall]
  exact eq_comm

/-- The check compares the numbers of the four streams. -/
theorem frameLoss_eq_false_iff (send recv : V3cUnitType → List Int) :
    frameLoss send recv = false ↔
      ∀ t, t.hasStream = true → (send t).length = (recv t).length := by
  constructor
  · intro h t ht
    simp only [frameLoss, decide_eq_false_iff_not, not_or, not_not] at h
    obtain ⟨had, hovd, hgvd, havd⟩ := h
    cases t with
    | ad => exact had
    | ovd => exact hovd
    | gvd => exact hgvd
    | avd => exact havd
    | vps | pvd | cad => cases ht
  · intro h
    simp [frameLoss, h .ad rfl, h .ovd rfl, h .gvd rfl, h .avd rfl]

/-- In any run, whatever is lost, reordered or fails to be sent, when the sender has made its
check: no more NAL units of a stream have come back than the receiver has counted, and it has
counted no more than there are.  The sender takes the test for one without frame loss exactly
when on each stream the missing NAL units for which it logs a time are as many as the stray
ones that have come back; when no NAL unit of the atlas is stray, exactly when all for which it
logs a time have come back. -/
theorem check_iff {c : Setup} {evs : List Event} {s : State} {loss : Bool}
    (h : ∀ t, t.hasStream = true → ∀ n ∈ c.nals t, InFile c.bytes n)
    (hrun : Run (step c) (initial c) evs s) (hloss : s.loss = some loss) :
    (∀ t, t.hasStream = true →
      (s.streams t).back.arrived.length ≤ s.receiver.results t ∧
        s.receiver.results t ≤ (c.nals t).length) ∧
    (loss = false ↔ ∀ t, t.hasStream = true →
      (s.streams t).back.arrived.countP (isSendLogged t) +
          (s.streams t).back.arrived.countP (isStray t) =
        ((c.nals t).map (slice c.bytes)).countP (isSendLogged t)) ∧
    ((∀ n ∈ c.nals .ad, Agrees .ad c.bytes n) →
      (loss = false ↔ ∀ t, t.hasStream = true → AllBack c s t)) := by
  have hsound : Sound c s := hrun.invariant (I := fun _ s => Sound c s) (sound_initial h)
    fun _ _ _ _ _ h hs => h.step hs
  obtain ⟨hqueues, hcheck⟩ := hsound.checked loss hloss
  have hcount : loss = false ↔ ∀ t, t.hasStream = true →
      (s.streams t).back.arrived.countP (isSendLogged t) +
          (s.streams t).back.arrived.countP (isStray t) =
        ((c.nals t).map (slice c.bytes)).countP (isSendLogged t) := by
    rw [hcheck, frameLoss_eq_false_iff]
    refine forall_congr' fun t => forall_congr' fun ht => ?_
    exact (hsound.kept t ht).length_eq_iff (hqueues t (VpccLoop.mem_streams.mpr ht))
  refine ⟨fun t ht => ?_, hcount, fun hagree => ?_⟩
  · obtain ⟨hback, hthere⟩ := (hsound.kept t ht).arrived_subperm
    rw [hsound.counted t]
    refine ⟨hback.length_le, ?_⟩
    have hle := hthere.length_le
    rwa [List.length_map] at hle
  · rw [hcount]
    refine forall_congr' fun t => forall_congr' fun ht => ?_
    obtain ⟨hback, hthere⟩ := (hsound.kept t ht).arrived_subperm
    have hsub := hback.trans hthere
    -- no stray one is there to come back
    have hstray : (s.streams t).back.arrived.countP (isStray t) = 0 := by
      refine List.countP_eq_zero.mpr fun frame hframe hstray => ?_
      obtain ⟨n, hn, rfl⟩ := List.mem_map.mp (hsub.subset hframe)
      obtain ⟨rfl, hvideo⟩ := of_decide_eq_true hstray
      exact hagree n hn rfl hvideo
    rw [hstray, Nat.add_zero, List.countP_eq_length_filter, List.countP_eq_length_filter]
    constructor
    · intro hlength
      exact (hsub.filter _).perm_of_length_le hlength.ge
    · intro hperm
      exact hperm.length_eq

/-- An atlas with two NAL units, of the types 0 and 32. -/
def strayNal : Setup where
  bytes := [0, 1, 64, 1]
  units t :=
    if t = .ad then
      [{ header := default, nalInfos := [{ size := 2 }, { location := 2, size := 2 }] }]
    else []

/-- The first NAL unit is lost, the second comes back and makes up for it. -/
theorem check_iff_masked :
    ∃ s, Run (step strayNal) (initial strayNal)
        [.send .ad true 0, .send .ad true 0, .loseThere .ad 0, .look, .echo .ad 0 true,
          .hook .ad 0 5000, .check] s ∧ s.loss = some false ∧
      (s.streams .ad).back.arrived.countP (isSendLogged .ad) +
          (s.streams .ad).back.arrived.countP (isStray .ad) = 1 := by
  obtain ⟨s, hrun, hloss⟩ : ∃ s, Run (step strayNal) (initial strayNal)
      [.send .ad true 0, .send .ad true 0, .loseThere .ad 0, .look, .echo .ad 0 true,
        .hook .ad 0 5000, .check] s ∧ s.loss = some false := ⟨_, run_get (by decide), by decide⟩
  have hfile : ∀ t, t.hasStream = true → ∀ n ∈ strayNal.nals t, InFile strayNal.bytes n := by
    intro t ht
    cases t <;> decide
  obtain ⟨-, hcheck, -⟩ := check_iff hfile hrun hloss
  exact ⟨s, hrun, hloss, hcheck.mp rfl .ad rfl⟩

end RtpBenchmarks.Uvgrtp.VpccEcho
