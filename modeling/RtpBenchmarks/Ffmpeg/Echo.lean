import RtpBenchmarks.Ffmpeg.LatencySender
import RtpBenchmarks.Foundation.Simulation

set_option autoImplicit false

/-!
# The FFmpeg latency test (`ffmpeg/latency_sender.cc`, `ffmpeg/latency_receiver.cc`)

The receiver reads packets as long as `av_read_frame` succeeds, and writes each of them back.  The
streams keep the order of the packets and may lose some; a packet is known by its number.

To the sender the receiver and both streams are one channel, on which the packets that come back
are in front of those on the way there.
-/

namespace RtpBenchmarks.Ffmpeg.Echo

open RtpBenchmarks.Foundation
open RtpBenchmarks.Ffmpeg.LatencySender (recordChunk writeChunk receivePacket)

/-! ## The system -/

/-- The sender, the packets on the way there and back, first the next to arrive, and whether the
loop of the receiver has ended.  `written`, `echoed` and `received` count the packets, `sends` has
their send times, and `fault` is set when the sender takes the front of an empty deque. -/
structure State where
  sender : LatencySender.State
  there : List Nat := []
  back : List Nat := []
  ended : Bool := false
  written : Nat := 0
  echoed : Nat := 0
  received : Nat := 0
  sends : List Int := []
  fault : Bool := false
  deriving DecidableEq

/-- A step of either loop of the sender, a packet that the receiver reads and writes, the end of
its loop, or the loss of a packet. -/
inductive Event where
  | record (now now' : Int)
  | write
  | echo (ok : Bool)
  | stop
  | receive (data : List UInt8) (now : Int)
  | close
  | loseThere (i : Nat)
  | loseBack (i : Nat)
  deriving DecidableEq, Repr

/-- A step of the loops of the sender; `none` where it cannot be taken. -/
def senderStep (s : State) : LatencySender.Event → Option State
  | .record now now' =>
    match s.sender.phase, s.sender.chunkSizes with
    | .next, chunkSize :: rest =>
      let sender := recordChunk s.sender chunkSize rest now now'
      some { s with
        sender, sends := if sender.phase = .writing then s.sends ++ [now'] else s.sends }
    | _, _ => none
  | .write =>
    match s.sender.phase, s.sender.chunkSizes with
    | .writing, chunkSize :: rest =>
      some { s with
        sender := writeChunk s.sender chunkSize rest
        there := s.there ++ [s.written]
        written := s.written + 1 }
    | _, _ => none
  | .receive data now =>
    if s.sender.printed.isSome ∨ s.back = [] then none
    else
      match receivePacket s.sender data now with
      | none => some { s with fault := true }
      | some (sender, _) =>
        some { s with sender, back := s.back.tail, received := s.received + 1 }
  | .close =>
    if s.sender.printed.isSome then none
    else some { s with sender := { s.sender with printed := some s.sender.counters.report } }
  | .lose _ => none

/-- A step of the system; `none` where it cannot be taken.  What `av_write_frame` returns is not
looked at; a packet that it does not write is lost. -/
def step (s : State) (e : Event) : Option State :=
  if s.fault then none
  else
    match e with
    | .record now now' => senderStep s (.record now now')
    | .write => senderStep s .write
    | .echo ok =>
      match s.ended, s.there with
      | false, n :: there =>
        some { s with
          there
          back := if ok then s.back ++ [n] else s.back
          echoed := if ok then s.echoed + 1 else s.echoed }
      | _, _ => none
    | .stop => if s.ended then none else some { s with ended := true }
    | .receive data now => senderStep s (.receive data now)
    | .close => senderStep s .close
    | .loseThere i =>
      if i < s.there.length then some { s with there := s.there.eraseIdx i } else none
    | .loseBack i =>
      if i < s.back.length then some { s with back := s.back.eraseIdx i } else none

/-- The state before the loops. -/
def initial (chunkSizes : List Nat) : State :=
  { sender := { chunkSizes } }

/-! ## The channel of the sender -/

/-- The sender over one channel. -/
def network (s : State) : LatencySender.System where
  prog := s.sender
  channel := { sent := s.written, received := s.received, inFlight := s.back ++ s.there }
  sends := s.sends
  fault := s.fault

/-- What the sender does, and what comes back to it. -/
def visible : LatencySender.Event → Option LatencySender.Event
  | .lose _ => none
  | e => some e

/-- The same of the system. -/
def act : Event → Option LatencySender.Event
  | .record now now' => some (.record now now')
  | .write => some .write
  | .receive data now => some (.receive data now)
  | .close => some .close
  | .echo _ | .stop | .loseThere _ | .loseBack _ => none

/-- No packet is lost. -/
def Keeps : Event → Prop
  | .echo ok => ok = true
  | .loseThere _ | .loseBack _ => False
  | .record _ _ | .write | .stop | .receive _ _ | .close => True

section Steps

variable {s s' : State}

/-- The steps of the sender are those over its channel. -/
theorem senderStep_network {e : LatencySender.Event} (hrunning : s.fault = false)
    (h : senderStep s e = some s') : LatencySender.step (network s) e = some (network s') := by
  cases e with
  | record now now' =>
    simp only [senderStep] at h
    split at h
    · next hphase hsizes =>
      obtain rfl := Option.some.inj h
      simp [LatencySender.step, network, hphase, hsizes, hrunning]
    · cases h
  | write =>
    simp only [senderStep] at h
    split at h
    · next hphase hsizes =>
      obtain rfl := Option.some.inj h
      simp [LatencySender.step, network, hphase, hsizes, hrunning, Channel.send]
    · cases h
  | receive data now =>
    simp only [senderStep] at h
    split at h
    · cases h
    · next hguard =>
      obtain ⟨hprinted, hback⟩ := not_or.mp hguard
      obtain ⟨n, back, hcons⟩ := List.exists_cons_of_ne_nil hback
      split at h
      · next hcall =>
        obtain rfl := Option.some.inj h
        simp [LatencySender.step, network, hcall, hcons, hprinted, hrunning]
      · next hcall =>
        obtain rfl := Option.some.inj h
        simp [LatencySender.step, network, hcall, hcons, hprinted, hrunning, Channel.receive]
  | close =>
    simp only [senderStep] at h
    split at h
    · cases h
    · next hprinted =>
      obtain rfl := Option.some.inj h
      simp [LatencySender.step, network, hprinted, hrunning]
  | lose i => cases h

/-- The channel can lose any of the packets. -/
theorem lose_network {i : Nat} (hrunning : s.fault = false)
    (hi : i < s.back.length + s.there.length) :
    LatencySender.step (network s) (.lose i) = some { network s with
      channel := (network s).channel.lose i } := by
  simp [LatencySender.step, network, hrunning, hi]

/-- What a step is to the sender: nothing, or a step over its channel, which loses a packet only if
one is lost. -/
inductive Followed (s s' : State) (e : Event) : Prop where
  | silent (same : network s' = network s) (hidden : act e = none)
  | step (event : LatencySender.Event)
      (step : LatencySender.step (network s) event = some (network s'))
      (seen : visible event = act e) (kept : Keeps e → ∀ i, event ≠ .lose i)

theorem followed_of_step {e : Event} (hs : step s e = some s') : Followed s s' e := by
  unfold step at hs
  rw [Option.ite_none_left_eq_some] at hs
  obtain ⟨hfault, hs⟩ := hs
  have hrunning : s.fault = false := by simpa using hfault
  cases e with
  | record now now' =>
    exact .step (.record now now') (senderStep_network hrunning hs) rfl (by rintro - i ⟨⟩)
  | write => exact .step .write (senderStep_network hrunning hs) rfl (by rintro - i ⟨⟩)
  | receive data now =>
    exact .step (.receive data now) (senderStep_network hrunning hs) rfl (by rintro - i ⟨⟩)
  | close => exact .step .close (senderStep_network hrunning hs) rfl (by rintro - i ⟨⟩)
  | stop =>
    dsimp only at hs
    split at hs
    · cases hs
    · obtain rfl := Option.some.inj hs
      exact .silent rfl rfl
  | echo ok =>
    dsimp only at hs
    split at hs
    · next n there hended hthere =>
      obtain rfl := Option.some.inj hs
      cases ok with
      | true => exact .silent (by simp [network, hthere]) rfl
      | false =>
        refine .step (.lose s.back.length) ?_ rfl (by rintro ⟨⟩)
        rw [lose_network hrunning (by simp [hthere])]
        simp [network, Channel.lose, hthere, List.eraseIdx_append_of_length_le]
    · cases hs
  | loseThere i =>
    dsimp only at hs
    split at hs
    · next hi =>
      obtain rfl := Option.some.inj hs
      refine .step (.lose (s.back.length + i)) ?_ rfl (by rintro ⟨⟩)
      rw [lose_network hrunning (by omega)]
      simp [network, Channel.lose, List.eraseIdx_append_of_length_le]
    · cases hs
  | loseBack i =>
    dsimp only at hs
    split at hs
    · next hi =>
      obtain rfl := Option.some.inj hs
      refine .step (.lose i) ?_ rfl (by rintro ⟨⟩)
      rw [lose_network hrunning (by omega)]
      simp [network, Channel.lose, List.eraseIdx_append_of_lt_length hi]
    · cases hs

/-- The sender over its channel simulates the test. -/
theorem simulates : Simulates LatencySender.step step visible act (fun _ _ => True)
    (fun _ _ => True) (fun s a => a = network s) := by
  rintro s e s' _ rfl - hs
  cases followed_of_step hs with
  | silent same hidden =>
    refine ⟨[], network s, run_nil.mpr rfl, everyStep_nil, ?_, same.symm⟩
    rw [hidden]
    rfl
  | step event hstep seen kept =>
    refine ⟨[event], network s', run_cons.mpr ⟨_, hstep, run_nil.mpr rfl⟩,
      everyStep_singleton trivial, ?_, rfl⟩
    rw [← seen, List.filterMap_cons, List.filterMap_nil]
    cases visible event <;> rfl

end Steps

/-- In every run of the test the sender does what it does over one channel that keeps the order of
the packets and may lose some: the receiver and what the streams make of the packets between them
cannot be seen. -/
theorem channel_run {chunkSizes : List Nat} {events : List Event} {s : State}
    (hrun : Run step (initial chunkSizes) events s) :
    ∃ es, Run LatencySender.step (LatencySender.initial chunkSizes) es (network s) ∧
      es.filterMap visible = events.filterMap act := by
  obtain ⟨es, a, hes, -, hseen, rfl⟩ :=
    simulates.run (t := LatencySender.initial chunkSizes) rfl (fun _ _ _ _ _ _ => trivial) hrun
  exact ⟨es, hes, hseen⟩

/-- Two packets: the receiver writes the first and ends, so that the second does not come back. -/
def receiverEnds : List Event :=
  [.record 0 0, .write, .echo true, .stop, .record 33000000 33000000, .write,
    .receive [0, 0, 1, 38] 40000000, .close]

theorem channel_run_receiverEnds :
    ∃ s, Run step (initial [10, 20]) receiverEnds s ∧
      ∃ es, Run LatencySender.step (LatencySender.initial [10, 20]) es (network s) ∧
        es.filterMap visible = receiverEnds.filterMap act := by
  have hrun : Run step (initial [10, 20]) receiverEnds _ := run_get (by decide +kernel)
  exact ⟨_, hrun, channel_run hrun⟩

/-! ## What comes back -/

/-- The step, if the sender receives a packet, computes the time since the send time of that
packet. -/
def RightLatency (s : State) : Event → Prop
  | .receive data now =>
    ∀ n rest sent sender diff, s.back = n :: rest → s.sends[n]? = some sent →
      receivePacket s.sender data now = some (sender, diff) → diff = (now - sent).tdiv 1000
  | .record _ _ | .write | .echo _ | .stop | .close | .loseThere _ | .loseBack _ => True

/-- The packet that ends the loop that receives them. -/
def lastFrame : Nat := 596

/-- The packets are counted, and the loop that receives them ends with the last one or when it
cannot read another. -/
structure Tallied (done : List Event) (s : State) : Prop where
  queued : LatencySender.Queued (network s)
  frames : s.sender.counters.frames = s.received
  back : s.received + s.back.length ≤ s.echoed
  there : s.echoed + s.there.length ≤ s.written
  running : s.sender.printed = none → s.received < lastFrame
  printed : ∀ report, s.sender.printed = some report → report = s.sender.counters.report ∧
    (s.received = lastFrame ∨ s.received < lastFrame ∧ .close ∈ done)

theorem tallied_initial (chunkSizes : List Nat) : Tallied [] (initial chunkSizes) where
  queued := LatencySender.queued_initial chunkSizes
  frames := rfl
  back := Nat.le_refl 0
  there := Nat.le_refl 0
  running _ := Nat.zero_lt_succ _
  printed _ h := by cases h

section Steps

variable {done : List Event} {s s' : State} {e : Event}

theorem recordChunk_counters (p : LatencySender.State) (chunkSize : Nat) (rest : List Nat)
    (now now' : Int) :
    (recordChunk p chunkSize rest now now').counters = p.counters ∧
      (recordChunk p chunkSize rest now now').printed = p.printed := by
  unfold recordChunk
  dsimp only
  split <;> exact ⟨rfl, rfl⟩

theorem count_frames (c : LatencySender.Counters) (nalType : UInt8) (diff : Int) :
    (c.count nalType diff).frames = c.frames + 1 := by
  unfold LatencySender.Counters.count
  dsimp only
  split_ifs <;> rfl

/-- A packet is counted, and the last one ends the loop. -/
theorem receivePacket_counters {p p' : LatencySender.State} {data : List UInt8} {now diff : Int}
    (h : receivePacket p data now = some (p', diff)) :
    p'.counters.frames = p.counters.frames + 1 ∧
      p'.printed = if p.counters.frames + 1 < lastFrame then p.printed
        else some p'.counters.report := by
  unfold receivePacket at h
  split at h
  · cases h
  · next front timestamps2 hfront =>
    dsimp only at h
    rw [count_frames] at h
    by_cases hlast : p.counters.frames + 1 < 596
    · rw [if_pos hlast] at h
      cases h
      exact ⟨count_frames _ _ _, (if_pos hlast).symm⟩
    · rw [if_neg hlast] at h
      cases h
      exact ⟨count_frames _ _ _, (if_neg hlast).symm⟩

theorem Queued.followed (h : LatencySender.Queued (network s)) (hs : Followed s s' e) :
    LatencySender.Queued (network s') := by
  cases hs with
  | silent same hidden => rwa [same]
  | step event hstep seen kept => exact h.step hstep

/-- A step that does not count or print. -/
theorem Tallied.elsewhere (h : Tallied done s) (hs : Followed s s' e)
    (hcounters : s'.sender.counters = s.sender.counters)
    (hprinted : s'.sender.printed = s.sender.printed) (hreceived : s'.received = s.received)
    (hback : s'.received + s'.back.length ≤ s'.echoed)
    (hthere : s'.echoed + s'.there.length ≤ s'.written) : Tallied (done ++ [e]) s' := by
  refine ⟨Queued.followed h.queued hs, ?_, hback, hthere, ?_, ?_⟩
  · rw [hcounters, hreceived, h.frames]
  · rw [hprinted, hreceived]
    exact h.running
  · intro report hreport
    rw [hprinted] at hreport
    obtain ⟨hreport, hend⟩ := h.printed report hreport
    rw [hcounters, hreceived]
    exact ⟨hreport, hend.imp_right fun hclose => ⟨hclose.1, List.mem_append_left _ hclose.2⟩⟩

theorem Tallied.step (h : Tallied done s) (hs : Echo.step s e = some s') :
    Tallied (done ++ [e]) s' := by
  have hfollowed := followed_of_step hs
  have hback := h.back
  have hthere := h.there
  unfold Echo.step at hs
  rw [Option.ite_none_left_eq_some] at hs
  obtain ⟨-, hs⟩ := hs
  cases e with
  | record now now' =>
    simp only [senderStep] at hs
    split at hs
    · next chunkSize rest hphase hsizes =>
      obtain ⟨hcounters, hprinted⟩ := recordChunk_counters s.sender chunkSize rest now now'
      obtain rfl := Option.some.inj hs
      exact h.elsewhere hfollowed hcounters hprinted rfl hback hthere
    · cases hs
  | write =>
    simp only [senderStep] at hs
    split at hs
    · obtain rfl := Option.some.inj hs
      refine h.elsewhere hfollowed rfl rfl rfl hback ?_
      simp only [List.length_append, List.length_singleton]
      omega
    · cases hs
  | receive data now =>
    simp only [senderStep] at hs
    split at hs
    · cases hs
    · next hguard =>
      obtain ⟨hprinted, hne⟩ := not_or.mp hguard
      have hnone : s.sender.printed = none := by simpa using hprinted
      have hlt := h.running hnone
      obtain ⟨n, rest, hcons⟩ := List.exists_cons_of_ne_nil hne
      split at hs
      · obtain rfl := Option.some.inj hs
        exact h.elsewhere hfollowed rfl rfl rfl hback hthere
      · next hcall =>
        obtain ⟨hframes, hend⟩ := receivePacket_counters hcall
        rw [h.frames] at hframes hend
        rw [hnone] at hend
        obtain rfl := Option.some.inj hs
        rw [hcons, List.length_cons] at hback
        have hback' : s.received + 1 + s.back.tail.length ≤ s.echoed := by
          rw [hcons, List.tail_cons]
          omega
        refine ⟨Queued.followed h.queued hfollowed, hframes, hback', hthere, fun hrun => ?_,
          fun report hreport => ?_⟩
        · change s.received + 1 < lastFrame
          split_ifs at hend with hlast
          · exact hlast
          · cases hend.symm.trans hrun
        · split_ifs at hend with hlast
          · cases hend.symm.trans hreport
          · cases hend.symm.trans hreport
            refine ⟨rfl, .inl ?_⟩
            change s.received + 1 = lastFrame
            omega
  | close =>
    simp only [senderStep] at hs
    split at hs
    · cases hs
    · next hprinted =>
      have hnone : s.sender.printed = none := by simpa using hprinted
      obtain rfl := Option.some.inj hs
      refine ⟨Queued.followed h.queued hfollowed, h.frames, hback, hthere, fun hrun => ?_,
        fun report hreport => ?_⟩
      · cases hrun
      · cases hreport
        exact ⟨rfl, .inr ⟨h.running hnone, by simp⟩⟩
  | stop =>
    dsimp only at hs
    split at hs
    · cases hs
    · obtain rfl := Option.some.inj hs
      exact h.elsewhere hfollowed rfl rfl rfl hback hthere
  | echo ok =>
    dsimp only at hs
    split at hs
    · next n there hended hcons =>
      obtain rfl := Option.some.inj hs
      rw [hcons, List.length_cons] at hthere
      refine h.elsewhere hfollowed rfl rfl rfl ?_ ?_ <;> cases ok <;> simp <;> omega
    · cases hs
  | loseThere i =>
    dsimp only at hs
    split at hs
    · obtain rfl := Option.some.inj hs
      have hle := List.length_eraseIdx_le s.there i
      exact h.elsewhere hfollowed rfl rfl rfl hback (by dsimp only; omega)
    · cases hs
  | loseBack i =>
    dsimp only at hs
    split at hs
    · obtain rfl := Option.some.inj hs
      have hle := List.length_eraseIdx_le s.back i
      exact h.elsewhere hfollowed rfl rfl rfl (by dsimp only; omega) hthere
    · cases hs

/-- As long as no packet is lost each latency is that of its packet. -/
theorem rightLatency_of_complete (hqueued : LatencySender.Queued (network s))
    (hcomplete : (network s).channel.Complete) : RightLatency s e := by
  cases e with
  | receive data now =>
    intro n rest sent sender diff hback hsent hcall
    have hflight : (network s).channel.inFlight = n :: (rest ++ s.there) := by
      simp [network, hback]
    obtain ⟨front, hfront, hqueue⟩ := hqueued.front (by rw [hflight]; exact List.cons_ne_nil _ _)
    obtain ⟨prog, hcall', -, -⟩ := LatencySender.receivePacket_cons hqueue data now
    obtain ⟨rfl, rfl⟩ := Prod.mk.inj (Option.some.inj (hcall.symm.trans hcall'))
    have hn := hcomplete.first hflight
    rw [← hn] at hfront
    rw [Option.some.inj (hfront.symm.trans hsent)]
  | record _ _ | write | echo _ | stop | close | loseThere _ | loseBack _ => trivial

end Steps

/-- In every run of the test the sender counts what comes back, at most what the receiver has
written and at most 596 packets; it never takes the front of an empty deque, and it prints its
report with the 596th packet or when it cannot read one.  If no packet is lost, each latency is
that of its packet, however late the packets come back. -/
theorem test_tallied {chunkSizes : List Nat} {events : List Event} {s : State}
    (hrun : Run step (initial chunkSizes) events s) :
    s.fault = false ∧ s.sender.counters.frames = s.received ∧ s.received ≤ lastFrame ∧
      s.received + s.back.length ≤ s.echoed ∧ s.echoed + s.there.length ≤ s.written ∧
      (∀ report, s.sender.printed = some report → report.frames = s.received ∧
        (s.received = lastFrame ∨ .close ∈ events)) ∧
      ((∀ e ∈ events, Keeps e) →
        EveryStep step (fun _ s e => RightLatency s e) (initial chunkSizes) events) := by
  have htallied {events : List Event} {s : State}
      (hrun : Run step (initial chunkSizes) events s) : Tallied events s :=
    Run.invariant (tallied_initial chunkSizes) (fun _ _ _ _ _ h hs => h.step hs) hrun
  obtain ⟨hqueued, hframes, hback, hthere, hrunning, hprinted⟩ := htallied hrun
  refine ⟨hqueued.fault, hframes, ?_, hback, hthere, ?_, ?_⟩
  · cases hreport : s.sender.printed with
    | none => exact (hrunning hreport).le
    | some report =>
      rcases (hprinted report hreport).2 with hall | ⟨hlt, -⟩
      · exact hall.le
      · exact hlt.le
  · intro report hreport
    obtain ⟨rfl, hend⟩ := hprinted report hreport
    exact ⟨hframes, hend.imp_right And.right⟩
  · intro hkeeps done e rest mid hevents hmid
    refine rightLatency_of_complete (htallied hmid).queued ?_
    have hdone : EveryStep step (fun _ _ e => Keeps e) (initial chunkSizes) done :=
      everyStep_of_forall_mem fun e he => hkeeps e (by simp [hevents, he])
    refine hmid.preserves_of_everyStep (P := fun s => (network s).channel.Complete)
      Channel.complete_initial hdone fun _ mid e mid' hcomplete hkeep hs => ?_
    cases followed_of_step hs with
    | silent same hidden => rwa [same]
    | step event hstep seen kept =>
      exact LatencySender.complete_step hcomplete (kept hkeep) hstep

theorem test_tallied_receiverEnds :
    ∃ s, Run step (initial [10, 20]) receiverEnds s ∧ s.fault = false ∧
      s.received + s.back.length ≤ s.echoed ∧
      EveryStep step (fun _ s e => RightLatency s e) (initial [10, 20]) receiverEnds := by
  have hrun : Run step (initial [10, 20]) receiverEnds _ := run_get (by decide +kernel)
  obtain ⟨hfault, -, -, hback, -, -, hright⟩ := test_tallied hrun
  refine ⟨_, hrun, hfault, hback, hright ?_⟩
  simp [receiverEnds, Keeps]

end RtpBenchmarks.Ffmpeg.Echo
