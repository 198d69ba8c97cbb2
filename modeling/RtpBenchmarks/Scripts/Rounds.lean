import RtpBenchmarks.Foundation.Runs
import RtpBenchmarks.Foundation.Stream

set_option autoImplicit false

/-!
# Benchmark scripts: the rounds (`benchmark.pl`)

A sending and a receiving script run the programs of a benchmark, round by round, on two
machines.  They are connected over TCP.  The receiving script announces each round with
`"start"` and runs its program; it never waits for the sending script.  The sending
script reads at most 16 bytes before each round and runs its program; it never looks at
what it has read.

The loop over the rounds is the same in `send_benchmark`, `vpcc_send_benchmark`,
`send_latency` and `vpcc_send_latency`, and in the receiving script of each.  An atomic
step is what one of the scripts does between two points at which it waits.
-/

namespace RtpBenchmarks.Scripts

open RtpBenchmarks.Foundation

/-! ## The code -/

/-- What both scripts are started with: how many rounds there are in all, and whether the
sending script reports the end of each (`$gen_recv`; not in the latency benchmarks). -/
structure Options where
  rounds : Nat
  genRecv : Bool := false
  deriving DecidableEq, Repr

/-- The announcement of a round. -/
def startMessage : List Char :=
  "start".toList

/-- The report of its end. -/
def endMessage : List Char :=
  "end".toList

/-- What `recv` reads at most. -/
def recvMax : Nat := 16

/-- Where the receiving script is: before an announcement, in `system`, or at its end, also
after `die`; its socket is then closed. -/
inductive ReceiverPhase where
  | idle
  | running
  | closed
  deriving DecidableEq, Repr

/-- Where the sending script is: before `recv`, in `system`, or at its end after `die`. -/
inductive SenderPhase where
  | waiting
  | running
  | died
  deriving DecidableEq, Repr

/-- The scripts and their connection: the rounds announced and those begun, what has been
sent and not yet read in each direction, and what each `recv` of the sending script has
returned. -/
structure State where
  announced : Nat := 0
  begun : Nat := 0
  stream : List Char := []
  replies : List Char := []
  taken : List (List Char) := []
  receiver : ReceiverPhase := .idle
  sender : SenderPhase := .waiting
  deriving DecidableEq, Repr

/-- An atomic step: of the receiving script, which announces a round, comes back from
`system` or closes its socket, or of the sending script, which is handed some bytes by
`recv` or comes back from `system`. -/
inductive Event where
  | announce
  | received (exitCode : Int)
  | close
  | recv (n : Nat)
  | sent (exitCode : Int)
  deriving DecidableEq, Repr

/-- `recv` returns as soon as there are bytes, with any number of them up to its maximum;
with none only when there will be no more. -/
def State.CanRecv (s : State) (n : Nat) : Prop :=
  (0 < n ∧ n ≤ recvMax ∧ n ≤ s.stream.length) ∨
    (n = 0 ∧ s.stream = [] ∧ s.receiver = .closed)

instance (s : State) (n : Nat) : Decidable (s.CanRecv n) :=
  inferInstanceAs (Decidable (_ ∨ _))

/-- `$socket->send("start")`. -/
def State.announce (s : State) : State :=
  { s with
    announced := s.announced + 1, stream := s.stream ++ startMessage, receiver := .running }

/-- `$remote->recv($data, 16)`. -/
def State.recv (s : State) (n : Nat) : State :=
  { s with
    begun := s.begun + 1, stream := s.stream.drop n, taken := s.taken ++ [s.stream.take n]
    sender := .running }

/-- The rest of a round of the sending script. -/
def State.sent (o : Options) (s : State) (exitCode : Int) : State :=
  { s with
    replies := if o.genRecv then s.replies ++ endMessage else s.replies
    sender := if exitCode ≠ 0 then .died else .waiting }

/-- A step of one of the scripts; `none` where it cannot be taken. -/
def step (o : Options) (s : State) : Event → Option State
  | .announce =>
    if s.receiver = .idle ∧ s.announced < o.rounds then some s.announce else none
  | .received exitCode =>
    if s.receiver = .running then
      some { s with receiver := if exitCode ≠ 0 then .closed else .idle }
    else none
  | .close =>
    if s.receiver = .idle ∧ s.announced = o.rounds then some { s with receiver := .closed }
    else none
  | .recv n =>
    if s.sender = .waiting ∧ s.begun < o.rounds ∧ s.CanRecv n then some (s.recv n) else none
  | .sent exitCode =>
    if s.sender = .running then some (s.sent o exitCode) else none

/-- The steps of the sending script. -/
def Event.ofSender : Event → Bool
  | .recv _ | .sent _ => true
  | .announce | .received _ | .close => false

/-! ## No announcement is lost or invented -/

/-- The rounds of the sending script are accounted for: each was begun after its
announcement, each has consumed one announcement, and the script can run every round that
has been announced. -/
structure Accounted (o : Options) (s : State) : Prop where
  announcedFirst : s.begun ≤ s.announced
  oneEach : s.taken = List.replicate s.begun startMessage
  able : s.sender ≠ .died → ∃ evs s', (∀ e ∈ evs, e.ofSender = true) ∧
    Run (step o) s evs s' ∧ s'.sender = .waiting ∧ s'.begun = s.announced ∧
    s'.taken = List.replicate s.announced startMessage

/-- The step, if it is a `recv`, is handed one announcement. -/
def Event.Whole : Event → Prop
  | .recv n => n = startMessage.length
  | .announce | .received _ | .close | .sent _ => True

/-- The step, if it is a `recv`, is handed all that has been sent and not yet read, up to
its maximum. -/
def Event.Prompt (s : State) : Event → Prop
  | .recv n => n = min recvMax s.stream.length
  | .announce | .received _ | .close | .sent _ => True

instance (s : State) : DecidablePred (Event.Prompt s)
  | .recv n => inferInstanceAs (Decidable (n = min recvMax s.stream.length))
  | .announce | .received _ | .close | .sent _ => inferInstanceAs (Decidable True)

/-- The step, if it is a `recv`, comes when exactly one more round has been announced than
begun. -/
def Event.OneAhead (s : State) : Event → Prop
  | .recv _ => s.announced = s.begun + 1
  | .announce | .received _ | .close | .sent _ => True

instance (s : State) : DecidablePred (Event.OneAhead s)
  | .recv _ => inferInstanceAs (Decidable (s.announced = s.begun + 1))
  | .announce | .received _ | .close | .sent _ => inferInstanceAs (Decidable True)

/-! ## Scripts in step -/

/-- What has been sent and not yet read are the announcements of the rounds that have not
begun. -/
structure InStep (o : Options) (s : State) : Prop where
  begun_le : s.begun ≤ s.announced
  announced_le : s.announced ≤ o.rounds
  stream : s.stream = copies startMessage (s.announced - s.begun)
  taken : s.taken = List.replicate s.begun startMessage

theorem inStep_initial (o : Options) : InStep o {} :=
  ⟨Nat.le_refl 0, Nat.zero_le _, rfl, rfl⟩

section Steps

variable {o : Options} {s s' : State}

theorem length_startMessage : startMessage.length = 5 := rfl

theorem InStep.announce (h : InStep o s) (hlt : s.announced < o.rounds) :
    InStep o s.announce := by
  refine ⟨Nat.le_succ_of_le h.begun_le, hlt, ?_, h.taken⟩
  change s.stream ++ startMessage = copies startMessage (s.announced + 1 - s.begun)
  rw [h.stream, copies_append, Nat.succ_sub h.begun_le]

/-- The next announcement is read whole. -/
theorem InStep.recv (h : InStep o s) (hlt : s.begun < s.announced) :
    InStep o (s.recv startMessage.length) := by
  have hstream : s.stream = copies startMessage (s.announced - (s.begun + 1) + 1) := by
    rw [h.stream]
    congr 1
    omega
  refine ⟨hlt, h.announced_le, ?_, ?_⟩
  · change s.stream.drop startMessage.length = _
    rw [hstream, drop_copies]
    rfl
  · change s.taken ++ [s.stream.take startMessage.length] = _
    rw [hstream, take_copies, h.taken]
    exact List.replicate_succ'.symm

/-- There is no more to read than the announcements of rounds that have not begun. -/
theorem InStep.length_stream (h : InStep o s) :
    s.stream.length = (s.announced - s.begun) * 5 := by
  rw [h.stream, length_copies, length_startMessage]

theorem step_recv {n : Nat} (hs : step o s (.recv n) = some s') :
    s.sender = .waiting ∧ s.begun < o.rounds ∧ s.CanRecv n ∧ s' = s.recv n := by
  rw [step, Option.ite_none_right_eq_some] at hs
  obtain ⟨⟨hwaiting, hlt, hcan⟩, hs⟩ := hs
  exact ⟨hwaiting, hlt, hcan, (Option.some.inj hs).symm⟩

/-- The program of the sending script may succeed. -/
theorem step_sent (hrunning : s.sender = .running) :
    step o s (.sent 0) = some (s.sent o 0) :=
  if_pos hrunning

/-- `recv` is not handed more than there is. -/
theorem State.CanRecv.le {n : Nat} (h : s.CanRecv n) : n ≤ s.stream.length := by
  rcases h with ⟨-, -, hle⟩ | ⟨rfl, -, -⟩
  · exact hle
  · exact Nat.zero_le _

/-- The scripts stay in step when every `recv` is handed one announcement. -/
theorem InStep.step {e : Event} (h : InStep o s) (hwhole : e.Whole)
    (hs : step o s e = some s') : InStep o s' := by
  cases e with
  | announce =>
    rw [Scripts.step, Option.ite_none_right_eq_some] at hs
    obtain ⟨⟨-, hlt⟩, hs⟩ := hs
    cases hs
    exact h.announce hlt
  | recv n =>
    obtain ⟨-, -, hcan, rfl⟩ := step_recv hs
    obtain rfl : n = startMessage.length := hwhole
    refine h.recv ?_
    have hle := hcan.le
    rw [h.length_stream, length_startMessage] at hle
    omega
  | received exitCode | close | sent exitCode =>
    rw [Scripts.step, Option.ite_none_right_eq_some] at hs
    obtain ⟨-, hs⟩ := hs
    cases hs
    exact ⟨h.begun_le, h.announced_le, h.stream, h.taken⟩

/-- The scripts are in step at the end of a run in which every `recv` is handed one
announcement. -/
theorem inStep_of_run {evs : List Event} (hrun : Run (Scripts.step o) {} evs s)
    (hwhole : EveryStep (Scripts.step o) (fun _ _ e => e.Whole) {} evs) : InStep o s :=
  hrun.preserves_of_everyStep (P := InStep o) (inStep_initial o) hwhole
    fun _ _ _ _ hin hw hs => hin.step hw hs

/-- The sending script reads the next announcement. -/
theorem InStep.step_recv (h : InStep o s) (hwaiting : s.sender = .waiting)
    (hlt : s.begun < s.announced) :
    Scripts.step o s (.recv startMessage.length) = some (s.recv startMessage.length) := by
  have hrounds : s.begun < o.rounds := Nat.lt_of_lt_of_le hlt h.announced_le
  have hroom : startMessage.length ≤ s.stream.length := by
    rw [h.length_stream, length_startMessage]
    omega
  exact if_pos ⟨hwaiting, hrounds, Or.inl ⟨by decide, by decide, hroom⟩⟩

/-- A waiting script in step runs every round that has been announced. -/
theorem InStep.run_waiting (h : InStep o s) (hwaiting : s.sender = .waiting) :
    ∃ evs s', (∀ e ∈ evs, e.ofSender = true) ∧ Run (Scripts.step o) s evs s' ∧
      s'.sender = .waiting ∧ s'.begun = s.announced ∧
      s'.taken = List.replicate s.announced startMessage := by
  -- induction on the number of rounds that are announced and not begun
  induction hk : s.announced - s.begun generalizing s with
  | zero =>
    have hbegun : s.begun = s.announced := by
      have := h.begun_le
      omega
    exact ⟨[], s, by simp, run_nil.mpr rfl, hwaiting, hbegun, hbegun ▸ h.taken⟩
  | succ k ih =>
    have hlt : s.begun < s.announced := by omega
    have hrecv := h.step_recv hwaiting hlt
    have hsent := step_sent (o := o) (s := s.recv startMessage.length) rfl
    have hnext := (h.recv hlt).step (e := .sent 0) trivial hsent
    obtain ⟨evs, s', hsender, hrun, hwaiting', hbegun, htaken⟩ := ih hnext rfl (by
      change s.announced - (s.begun + 1) = k
      omega)
    refine ⟨.recv startMessage.length :: .sent 0 :: evs, s', ?_, ?_, hwaiting', hbegun, htaken⟩
    · exact List.forall_mem_cons.mpr ⟨rfl, List.forall_mem_cons.mpr ⟨rfl, hsender⟩⟩
    · exact run_cons.mpr ⟨_, hrecv, run_cons.mpr ⟨_, hsent, hrun⟩⟩

/-- Scripts in step are accounted for. -/
theorem InStep.accounted (h : InStep o s) : Accounted o s := by
  refine ⟨h.begun_le, h.taken, fun halive => ?_⟩
  cases hsender : s.sender with
  | waiting => exact h.run_waiting hsender
  | running =>
    have hsent := step_sent (o := o) hsender
    obtain ⟨evs, s', hall, hrun, hend⟩ := (h.step (e := .sent 0) trivial hsent).run_waiting rfl
    exact ⟨.sent 0 :: evs, s', List.forall_mem_cons.mpr ⟨rfl, hall⟩,
      run_cons.mpr ⟨_, hsent, hrun⟩, hend⟩
  | died => exact absurd hsender halive

/-- A `recv` after which the rounds are accounted for was handed one announcement. -/
theorem Accounted.whole {e : Event} (h : Accounted o s') (hs : step o s e = some s') :
    e.Whole := by
  cases e with
  | recv n =>
    obtain ⟨-, -, hcan, rfl⟩ := Scripts.step_recv hs
    refine eq_length_of_take_eq hcan.le ?_
    have hmem : s.stream.take n ∈ (s.recv n).taken := by simp [State.recv]
    rw [h.oneEach] at hmem
    exact List.eq_of_mem_replicate hmem
  | announce | received exitCode | close | sent exitCode => trivial

/-- A prompt `recv` is handed one announcement if and only if one more round has been
announced than begun. -/
theorem InStep.whole_iff {e : Event} (h : InStep o s) (hprompt : e.Prompt s) :
    e.Whole ↔ e.OneAhead s := by
  cases e with
  | recv n =>
    change n = startMessage.length ↔ s.announced = s.begun + 1
    rw [show n = _ from hprompt, h.length_stream, length_startMessage, recvMax]
    omega
  | announce | received exitCode | close | sent exitCode => exact Iff.rfl

/-- The rounds are accounted for in every state of a run if and only if every `recv` is
handed one announcement.  Over a connection that is never late, that is if and only if at
every `recv` exactly one more round has been announced than begun. -/
theorem scripts_accounted {evs : List Event} (hrun : Run (step o) {} evs s) :
    (EveryState (step o) (Accounted o) {} evs ↔
      EveryStep (step o) (fun _ _ e => e.Whole) {} evs) ∧
    (EveryStep (step o) (fun _ s e => e.Prompt s) {} evs →
      (EveryState (step o) (Accounted o) {} evs ↔
        EveryStep (step o) (fun _ s e => e.OneAhead s) {} evs)) := by
  have hwhole : EveryState (step o) (Accounted o) {} evs ↔
      EveryStep (step o) (fun _ _ e => e.Whole) {} evs := by
    constructor
    · intro h
      exact h.everyStep hrun fun _ _ _ _ _ hacc hs => hacc.whole hs
    · intro hall done rest mid hevs hmid
      exact (inStep_of_run hmid (hevs ▸ hall).of_append).accounted
  refine ⟨hwhole, fun hprompt => hwhole.trans ?_⟩
  exact everyStep_congr_of_preserves (P := InStep o) (inStep_initial o)
    (fun _ _ _ _ hin hw hs => hin.step hw hs) (fun _ _ _ hin hp => hin.whole_iff hp) hprompt

/-- Two rounds of scripts that take turns. -/
theorem scripts_accounted_two :
    ∃ s, Run (step { rounds := 2 }) {} [.announce, .recv 5, .sent 0, .received 0,
        .announce, .recv 5, .received 0, .close, .sent 0] s ∧
      EveryState (step { rounds := 2 }) (Accounted { rounds := 2 }) {}
        [.announce, .recv 5, .sent 0, .received 0, .announce, .recv 5, .received 0, .close,
          .sent 0] := by
  have hrun : Run (step { rounds := 2 }) {} [.announce, .recv 5, .sent 0, .received 0,
      .announce, .recv 5, .received 0, .close, .sent 0] _ := run_get (by decide +kernel)
  exact ⟨_, hrun, ((scripts_accounted hrun).2 (by decide +kernel)).mpr (by decide +kernel)⟩

/-- A script that has read all announcements, and whose receiving script is in `system`,
begins no other round. -/
theorem begun_eq_of_run {evs : List Event} (hrun : Run (step o) s evs s')
    (hsender : ∀ e ∈ evs, e.ofSender = true) (hstream : s.stream = [])
    (hreceiver : s.receiver = .running) : s'.begun = s.begun := by
  have hkeep := hrun.preserves_of_everyStep
    (P := fun t => t.stream = [] ∧ t.receiver = .running ∧ t.begun = s.begun)
    ⟨hstream, hreceiver, rfl⟩ (everyStep_of_forall_mem hsender) ?_
  · exact hkeep.2.2
  · rintro - t e t' ⟨ht, hphase, hbegun⟩ hof hs
    cases e with
    | recv n =>
      obtain ⟨-, -, hcan, -⟩ := Scripts.step_recv hs
      rcases hcan with ⟨hpos, -, hle⟩ | ⟨-, -, hclosed⟩
      · rw [ht, List.length_nil] at hle
        omega
      · rw [hphase] at hclosed
        cases hclosed
    | sent exitCode =>
      rw [Scripts.step, Option.ite_none_right_eq_some] at hs
      obtain ⟨-, hs⟩ := hs
      cases hs
      exact ⟨ht, hphase, hbegun⟩
    | announce | received exitCode | close => cases hof

end Steps

/-- Three rounds are announced while the program of the sending script is in its first.
The next `recv` is handed two announcements, and the script can run no third round. -/
theorem scripts_announcement_lost :
    let s : State :=
      { announced := 3, begun := 2, taken := [startMessage, startMessage ++ startMessage]
        receiver := .running, sender := .running }
    Run (step { rounds := 3 }) {} [.announce, .recv 5, .received 0, .announce, .received 0,
        .announce, .sent 0, .recv 10] s ∧
      (∀ evs s', (∀ e ∈ evs, e.ofSender = true) → Run (step { rounds := 3 }) s evs s' →
        s'.begun = 2) ∧
      ¬ Accounted { rounds := 3 } s := by
  intro s
  have hstuck : ∀ evs s', (∀ e ∈ evs, e.ofSender = true) →
      Run (step { rounds := 3 }) s evs s' → s'.begun = 2 := by
    intro evs s' hsender hrun
    exact begun_eq_of_run hrun hsender rfl rfl
  refine ⟨by decide +kernel, hstuck, fun h => ?_⟩
  obtain ⟨evs, s', hsender, hrun, -, hbegun, -⟩ := h.able (by decide)
  rw [hstuck evs s' hsender hrun] at hbegun
  cases hbegun

end RtpBenchmarks.Scripts
