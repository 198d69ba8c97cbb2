import RtpBenchmarks.Foundation.Progress
import RtpBenchmarks.Scripts.Rounds

set_option autoImplicit false

/-!
# Benchmark scripts: their end (`benchmark.pl`)

Whatever the programs return and however the announcements are read, the scripts come to an
end.  The receiving script may die in any round; its socket is then closed, and from there on
`recv` returns nothing, which the sending script does not notice: it runs all of its rounds.
-/

namespace RtpBenchmarks.Scripts

open RtpBenchmarks.Foundation

/-! ## Progress -/

/-- What is left to do in the round of the receiving script. -/
def ReceiverPhase.left : ReceiverPhase → Nat
  | .idle => 1
  | .running => 2
  | .closed => 0

/-- What is left to do in the round of the sending script. -/
def SenderPhase.left : SenderPhase → Nat
  | .running => 1
  | .waiting | .died => 0

/-- How many steps there may still be. -/
def State.left (o : Options) (s : State) : Nat :=
  2 * (o.rounds - s.announced) + s.receiver.left + (2 * (o.rounds - s.begun) + s.sender.left)

section Steps

variable {o : Options} {s s' : State}

theorem lowers_left : Lowers (step o) (State.left o) := by
  intro s e s' hs
  cases e with
  | announce =>
    obtain ⟨⟨hidle, hlt⟩, hs⟩ := Option.ite_none_right_eq_some.mp hs
    obtain rfl := Option.some.inj hs
    simp only [State.left, State.announce, hidle, ReceiverPhase.left]
    omega
  | received exitCode =>
    obtain ⟨hrunning, hs⟩ := Option.ite_none_right_eq_some.mp hs
    obtain rfl := Option.some.inj hs
    simp only [State.left, hrunning]
    split_ifs <;> simp only [ReceiverPhase.left] <;> omega
  | close =>
    obtain ⟨⟨hidle, -⟩, hs⟩ := Option.ite_none_right_eq_some.mp hs
    obtain rfl := Option.some.inj hs
    simp only [State.left, hidle, ReceiverPhase.left]
    omega
  | recv n =>
    obtain ⟨hwaiting, hlt, -, rfl⟩ := step_recv hs
    simp only [State.left, State.recv, hwaiting, SenderPhase.left]
    omega
  | sent exitCode =>
    obtain ⟨hrunning, hs⟩ := Option.ite_none_right_eq_some.mp hs
    obtain rfl := Option.some.inj hs
    simp only [State.left, State.sent, hrunning]
    split_ifs <;> simp only [SenderPhase.left] <;> omega

/-- What has been read and what has not are the announcements, and no script runs more rounds
than there are. -/
structure Bounded (o : Options) (s : State) : Prop where
  announced_le : s.announced ≤ o.rounds
  begun_le : s.begun ≤ o.rounds
  bytes : s.taken.flatten ++ s.stream = copies startMessage s.announced

theorem Bounded.step {e : Event} (h : Bounded o s) (hs : step o s e = some s') :
    Bounded o s' := by
  cases e with
  | announce =>
    obtain ⟨⟨-, hlt⟩, hs⟩ := Option.ite_none_right_eq_some.mp hs
    obtain rfl := Option.some.inj hs
    refine ⟨hlt, h.begun_le, ?_⟩
    change s.taken.flatten ++ (s.stream ++ startMessage) = copies startMessage (s.announced + 1)
    rw [← List.append_assoc, h.bytes, copies_append]
  | recv n =>
    obtain ⟨-, hlt, -, rfl⟩ := step_recv hs
    refine ⟨h.announced_le, hlt, ?_⟩
    change (s.taken ++ [s.stream.take n]).flatten ++ s.stream.drop n =
      copies startMessage s.announced
    rw [List.flatten_append, List.flatten_singleton, List.append_assoc, List.take_append_drop,
      h.bytes]
  | received exitCode | close | sent exitCode =>
    obtain ⟨-, hs⟩ := Option.ite_none_right_eq_some.mp hs
    obtain rfl := Option.some.inj hs
    exact ⟨h.announced_le, h.begun_le, h.bytes⟩

/-- There is always something to read, or nothing will come any more. -/
theorem exists_canRecv (h : s.receiver = .closed) : ∃ n, s.CanRecv n := by
  by_cases hstream : s.stream = []
  · exact ⟨0, .inr ⟨rfl, hstream, h⟩⟩
  · have hpos := List.length_pos_iff.mpr hstream
    exact ⟨1, .inl ⟨Nat.one_pos, by decide, hpos⟩⟩

/-- Where no script can take a step, both are at their end. -/
theorem Bounded.of_stuck (h : Bounded o s) (hstuck : Stuck (Scripts.step o) s) :
    s.receiver = .closed ∧ (s.sender ≠ .died → s.sender = .waiting ∧ s.begun = o.rounds) := by
  have hclosed : s.receiver = .closed := by
    cases hreceiver : s.receiver with
    | closed => rfl
    | running =>
      have hnone := hstuck (.received 0)
      rw [Scripts.step, if_pos hreceiver] at hnone
      cases hnone
    | idle =>
      rcases Nat.lt_or_eq_of_le h.announced_le with hlt | heq
      · have hnone := hstuck .announce
        rw [Scripts.step, if_pos ⟨hreceiver, hlt⟩] at hnone
        cases hnone
      · have hnone := hstuck .close
        rw [Scripts.step, if_pos ⟨hreceiver, heq⟩] at hnone
        cases hnone
  refine ⟨hclosed, fun halive => ?_⟩
  cases hsender : s.sender with
  | died => exact absurd hsender halive
  | running =>
    have hnone := hstuck (.sent 0)
    rw [step_sent hsender] at hnone
    cases hnone
  | waiting =>
    refine ⟨rfl, Nat.le_antisymm h.begun_le (Nat.le_of_not_lt fun hlt => ?_)⟩
    obtain ⟨n, hn⟩ := exists_canRecv hclosed
    have hnone := hstuck (.recv n)
    rw [Scripts.step, if_pos ⟨hsender, hlt, hn⟩] at hnone
    cases hnone

/-! ## Rounds without a receiver -/

/-- The step, if it is a `recv`, is handed one announcement or nothing. -/
def Event.Apart : Event → Prop
  | .recv n => n = startMessage.length ∨ n = 0
  | .announce | .received _ | .close | .sent _ => True

/-- Announcements are read one by one, and when all are, `recv` returns nothing. -/
structure Drained (s : State) : Prop where
  stream : s.stream = copies startMessage (s.announced - s.begun)
  taken : s.taken = List.replicate (min s.begun s.announced) startMessage ++
    List.replicate (s.begun - s.announced) []
  closed : s.announced < s.begun → s.receiver = .closed

theorem Drained.recv_whole (h : Drained s) (hcan : s.CanRecv startMessage.length) :
    Drained (s.recv startMessage.length) := by
  have hle := hcan.le
  rw [h.stream, length_copies, length_startMessage] at hle
  have hlt : s.begun < s.announced := by omega
  have hstream : s.stream = copies startMessage (s.announced - (s.begun + 1) + 1) := by
    rw [h.stream]
    congr 1
    omega
  refine ⟨?_, ?_, fun hover => ?_⟩
  · change s.stream.drop startMessage.length = _
    rw [hstream, drop_copies]
    rfl
  · change s.taken ++ [s.stream.take startMessage.length] =
      List.replicate (min (s.begun + 1) s.announced) startMessage ++
        List.replicate (s.begun + 1 - s.announced) []
    rw [hstream, take_copies, h.taken, Nat.min_eq_left (Nat.le_of_lt hlt), Nat.min_eq_left hlt,
      Nat.sub_eq_zero_of_le (Nat.le_of_lt hlt), Nat.sub_eq_zero_of_le hlt, List.replicate_succ']
    simp only [List.replicate_zero, List.append_nil]
  · exact absurd hover (Nat.not_lt.mpr hlt)

theorem Drained.recv_nothing (h : Drained s) (hcan : s.CanRecv 0) : Drained (s.recv 0) := by
  obtain ⟨hstream, hclosed⟩ : s.stream = [] ∧ s.receiver = .closed := by
    rcases hcan with ⟨hpos, -, -⟩ | ⟨-, hstream, hclosed⟩
    · exact absurd hpos (Nat.lt_irrefl 0)
    · exact ⟨hstream, hclosed⟩
  have hle : s.announced ≤ s.begun := by
    have hlength := congrArg List.length (h.stream.symm.trans hstream)
    rw [length_copies, length_startMessage, List.length_nil] at hlength
    omega
  refine ⟨?_, ?_, fun _ => hclosed⟩
  · change s.stream = copies startMessage (s.announced - (s.begun + 1))
    rw [Nat.sub_eq_zero_of_le (Nat.le_succ_of_le hle), hstream]
    rfl
  · change s.taken ++ [[]] = List.replicate (min (s.begun + 1) s.announced) startMessage ++
      List.replicate (s.begun + 1 - s.announced) []
    rw [h.taken, Nat.min_eq_right hle, Nat.min_eq_right (Nat.le_succ_of_le hle),
      Nat.succ_sub hle, List.replicate_succ', List.append_assoc]

theorem Drained.step {e : Event} (h : Drained s) (hapart : e.Apart)
    (hs : step o s e = some s') : Drained s' := by
  cases e with
  | announce =>
    obtain ⟨⟨hidle, -⟩, hs⟩ := Option.ite_none_right_eq_some.mp hs
    obtain rfl := Option.some.inj hs
    have hle : s.begun ≤ s.announced := by
      refine Nat.le_of_not_lt fun hlt => ?_
      rw [h.closed hlt] at hidle
      cases hidle
    refine ⟨?_, ?_, fun hlt => ?_⟩
    · change s.stream ++ startMessage = copies startMessage (s.announced + 1 - s.begun)
      rw [h.stream, copies_append, Nat.succ_sub hle]
    · change s.taken = _
      rw [h.taken]
      change _ = List.replicate (min s.begun (s.announced + 1)) startMessage ++
        List.replicate (s.begun - (s.announced + 1)) []
      rw [Nat.min_eq_left hle, Nat.min_eq_left (Nat.le_succ_of_le hle),
        Nat.sub_eq_zero_of_le hle, Nat.sub_eq_zero_of_le (Nat.le_succ_of_le hle)]
    · exact absurd hlt (Nat.not_lt.mpr (Nat.le_succ_of_le hle))
  | recv n =>
    obtain ⟨-, -, hcan, rfl⟩ := step_recv hs
    rcases hapart with rfl | rfl
    · exact h.recv_whole hcan
    · exact h.recv_nothing hcan
  | received exitCode =>
    obtain ⟨hrunning, hs⟩ := Option.ite_none_right_eq_some.mp hs
    obtain rfl := Option.some.inj hs
    refine ⟨h.stream, h.taken, fun hlt => ?_⟩
    cases (h.closed hlt).symm.trans hrunning
  | close =>
    obtain ⟨-, hs⟩ := Option.ite_none_right_eq_some.mp hs
    obtain rfl := Option.some.inj hs
    exact ⟨h.stream, h.taken, fun _ => rfl⟩
  | sent exitCode =>
    obtain ⟨-, hs⟩ := Option.ite_none_right_eq_some.mp hs
    obtain rfl := Option.some.inj hs
    exact ⟨h.stream, h.taken, h.closed⟩

end Steps

/-- Any run ends: it has at most four steps for each round and one more, it can be continued
until it cannot go on, and there the receiving script has closed its socket and the sending
script has died or run all of its rounds, also those that were never announced.  What `recv`
has returned and what is still to be read are the announcements; if they are read one by one,
`recv` has returned nothing in the rounds that were not announced, and only in these. -/
theorem scripts_finish {o : Options} {evs : List Event} {s : State}
    (hrun : Run (step o) {} evs s) :
    evs.length ≤ 4 * o.rounds + 1 ∧
      (∃ rest s', Run (step o) s rest s' ∧ Stuck (step o) s') ∧
      s.taken.flatten ++ s.stream = copies startMessage s.announced ∧
      (Stuck (step o) s → s.receiver = .closed ∧
        (s.sender ≠ .died → s.sender = .waiting ∧ s.begun = o.rounds)) ∧
      (Stuck (step o) s → s.sender ≠ .died → (∀ e ∈ evs, e.Apart) →
        s.taken = List.replicate s.announced startMessage ++
          List.replicate (o.rounds - s.announced) []) := by
  have hbounded : Bounded o s := hrun.invariant (I := fun _ s => Bounded o s)
    ⟨Nat.zero_le _, Nat.zero_le _, rfl⟩ fun _ _ _ _ _ h hs => h.step hs
  refine ⟨?_, lowers_left.exists_run_stuck s, hbounded.bytes, hbounded.of_stuck,
    fun hstuck halive hapart => ?_⟩
  · have hlength := lowers_left.run_length hrun
    have hinitial : State.left o {} = 4 * o.rounds + 1 := by
      simp only [State.left, ReceiverPhase.left, SenderPhase.left]
      omega
    omega
  · have hdrained : Drained s := hrun.preserves_of_everyStep (P := Drained)
      ⟨rfl, rfl, fun h => absurd h (Nat.lt_irrefl 0)⟩ (everyStep_of_forall_mem hapart)
      fun _ _ _ _ h he hs => h.step he hs
    obtain ⟨-, hbegun⟩ := (hbounded.of_stuck hstuck).2 halive
    rw [hdrained.taken, hbegun, Nat.min_eq_right hbounded.announced_le]

/-- The receiving script dies in the first of two rounds, and the sending script runs both. -/
theorem scripts_finish_alone :
    ∃ s, Run (step { rounds := 2 }) {}
        [.announce, .recv 5, .received 1, .sent 0, .recv 0, .sent 0] s ∧
      s.begun = 2 ∧ s.taken = [startMessage, []] := by
  obtain ⟨s, hrun, halive, hannounced, hstuck⟩ : ∃ s, Run (step { rounds := 2 }) {}
      [.announce, .recv 5, .received 1, .sent 0, .recv 0, .sent 0] s ∧ s.sender ≠ .died ∧
        s.announced = 1 ∧ Stuck (step { rounds := 2 }) s :=
    ⟨_, run_get (by decide), by decide, by decide, fun e => by cases e <;> rfl⟩
  obtain ⟨-, -, -, hend, htaken⟩ := scripts_finish hrun
  refine ⟨s, hrun, ((hend hstuck).2 halive).2, ?_⟩
  rw [htaken hstuck halive (by simp [Event.Apart, length_startMessage]), hannounced]
  rfl

end RtpBenchmarks.Scripts
