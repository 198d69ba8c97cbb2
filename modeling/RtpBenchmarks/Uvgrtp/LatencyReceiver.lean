import RtpBenchmarks.Foundation.Watch
import RtpBenchmarks.Uvgrtp.LatencySender

set_option autoImplicit false

/-!
# uvgRTP latency receiver (`uvgrtp/latency_receiver.cc`)

`hook_receiver` sends each frame back and counts it by the header that a HEVC frame has
behind its start code, whatever the format is.  The loop of `receiver` looks every 250 ms
whether a frame has come and ends when none has, or when enough have.

The hook may still be called when the loop has ended, until the stream is destroyed.
-/

namespace RtpBenchmarks.Uvgrtp.LatencyReceiver

open RtpBenchmarks.Foundation
open RtpBenchmarks.Uvgrtp.LatencySender (NaluKind Format)

/-! ## The code -/

/-- `EXPECTED_FRAMES`. -/
def expectedFrames : Nat := 604

/-- Where `receiver` is: in its loop, or behind it, with what `frame_received` was at its end. -/
inductive Phase where
  | waiting
  | ended (frameReceived : Bool)
  deriving DecidableEq, Repr

/-- The globals, where `receiver` is, how many frames could not be sent back, and the number in
the message about missing frames. -/
structure State where
  frameReceived : Bool := true
  totalFramesReceived : Nat := 0
  ninters : Nat := 0
  nintras : Nat := 0
  nNonVcl : Nat := 0
  phase : Phase := .waiting
  errors : Nat := 0
  message : Option Nat := none
  deriving DecidableEq, Repr

/-- The counter of a kind goes up. -/
def State.count (s : State) : NaluKind → State
  | .inter => { s with ninters := s.ninters + 1 }
  | .intra => { s with nintras := s.nintras + 1 }
  | .nonVcl => { s with nNonVcl := s.nNonVcl + 1 }

/-- `hook_receiver`, where `echoed` is whether `push_frame` returns `RTP_OK`; `none` where
the payload is too short for the header. -/
def hookReceiver (s : State) (payload : List UInt8) (echoed : Bool) : Option State :=
  let s := if echoed then s else { s with errors := s.errors + 1 }
  let s := { s with frameReceived := true, totalFramesReceived := s.totalFramesReceived + 1 }
  (Format.hevc.naluKind payload).map s.count

/-- The condition of the loop, and its body up to the sleep, or what follows the loop. -/
def look (s : State) : State :=
  if s.frameReceived ∧ s.totalFramesReceived < expectedFrames then
    { s with frameReceived := false }
  else
    { s with
      phase := .ended s.frameReceived
      message :=
        if s.totalFramesReceived < expectedFrames then some s.totalFramesReceived else none }

/-- A frame is received, or the loop looks. -/
inductive Event where
  | frame (payload : List UInt8) (echoed : Bool)
  | look
  deriving DecidableEq, Repr

/-- A step of the program; `none` where it cannot be taken. -/
def step (s : State) : Event → Option State
  | .frame payload echoed => hookReceiver s payload echoed
  | .look => if s.phase = .waiting then some (look s) else none

/-- Frames are what the loop waits for. -/
def signal : Event → Option Signal
  | .frame _ _ => some .arrival
  | .look => some .check

/-! ## What is counted -/

/-- The payload of a frame that is received. -/
def Event.payload : Event → Option (List UInt8)
  | .frame payload _ => some payload
  | .look => none

/-- The payloads of the frames that are received. -/
def received (evs : List Event) : List (List UInt8) :=
  evs.filterMap Event.payload

/-- The header of the payload is that of this kind. -/
def isKind (format : Format) (kind : NaluKind) (payload : List UInt8) : Bool :=
  format.naluKind payload == some kind

/-- The counters are those of these payloads. -/
structure Counts (s : State) (payloads : List (List UInt8)) : Prop where
  total : s.totalFramesReceived = payloads.length
  inters : s.ninters = payloads.countP (isKind .hevc .inter)
  intras : s.nintras = payloads.countP (isKind .hevc .intra)
  nonVcl : s.nNonVcl = payloads.countP (isKind .hevc .nonVcl)
  readable : ∀ payload ∈ payloads, (Format.hevc.naluKind payload).isSome

section Steps

variable {s s' : State} {e : Event} {payload : List UInt8} {echoed : Bool}
  {payloads : List (List UInt8)}

theorem counts_initial : Counts {} [] :=
  ⟨rfl, rfl, rfl, rfl, by simp⟩

/-- What a call of the hook does to the loop. -/
theorem hookReceiver_frame (h : hookReceiver s payload echoed = some s') :
    s'.frameReceived = true ∧ s'.phase = s.phase ∧ s'.message = s.message ∧
      s'.errors = s.errors + if echoed then 0 else 1 := by
  obtain ⟨kind, -, rfl⟩ := Option.map_eq_some_iff.mp h
  cases kind <;> cases echoed <;> exact ⟨rfl, rfl, rfl, rfl⟩

/-- A call of the hook counts its frame. -/
theorem Counts.hook (h : Counts s payloads) (hs : hookReceiver s payload echoed = some s') :
    Counts s' (payloads ++ [payload]) := by
  obtain ⟨kind, hkind, rfl⟩ := Option.map_eq_some_iff.mp hs
  obtain ⟨htotal, hinters, hintras, hnonVcl, hreadable⟩ := h
  have hcount (k : NaluKind) : (payloads ++ [payload]).countP (isKind .hevc k) =
      payloads.countP (isKind .hevc k) + if kind = k then 1 else 0 := by
    rw [List.countP_append, List.countP_singleton, isKind, hkind]
    simp
  have hall : ∀ p ∈ payloads ++ [payload], (Format.hevc.naluKind p).isSome := by
    refine List.forall_mem_append.mpr ⟨hreadable, ?_⟩
    simp [hkind]
  constructor
  case readable => exact hall
  case total =>
    rw [List.length_append, ← htotal]
    cases kind <;> cases echoed <;> rfl
  all_goals
    rw [hcount]
    cases kind <;> cases echoed <;> simp [State.count, *]

theorem look_counts (h : Counts s payloads) : Counts (look s) payloads := by
  unfold look
  split_ifs <;> exact ⟨h.total, h.inters, h.intras, h.nonVcl, h.readable⟩

/-- What a step can do to the loop: its guards, and the state it leaves. -/
inductive Took (s : State) : Event → State → Prop where
  | hook {s' : State} {payload : List UInt8} {echoed : Bool}
      (call : hookReceiver s payload echoed = some s') : Took s (.frame payload echoed) s'
  | again (waiting : s.phase = .waiting) (fresh : s.frameReceived = true)
      (more : s.totalFramesReceived < expectedFrames) :
      Took s .look { s with frameReceived := false }
  | timeOut (waiting : s.phase = .waiting) (quiet : s.frameReceived = false)
      (more : s.totalFramesReceived < expectedFrames) :
      Took s .look
        { s with phase := .ended s.frameReceived, message := some s.totalFramesReceived }
  | enough (waiting : s.phase = .waiting) (all : expectedFrames ≤ s.totalFramesReceived) :
      Took s .look { s with phase := .ended s.frameReceived, message := none }

theorem took_of_step (h : step s e = some s') : Took s e s' := by
  cases e with
  | frame payload echoed => exact .hook h
  | look =>
    obtain ⟨hwaiting, h⟩ := Option.ite_none_right_eq_some.mp h
    obtain rfl := Option.some.inj h
    unfold look
    split_ifs with hgo hmore
    · exact .again hwaiting hgo.1 hgo.2
    · exact .timeOut hwaiting (Bool.eq_false_iff.mpr fun h => hgo ⟨h, hmore⟩) hmore
    · exact .enough hwaiting (Nat.not_lt.mp hmore)

/-- The loop is a watch over the flag. -/
theorem watch : FlagWatch step signal (fun s => s.phase = .waiting)
    (fun s => s.phase = .ended false) State.frameReceived where
  expired_stops h hwaiting := by cases h.symm.trans hwaiting
  stopped_step hs hstopped := by
    cases took_of_step hs with
    | hook call =>
      rw [(hookReceiver_frame call).2.1]
      exact ⟨hstopped, Iff.rfl, by simp [signal]⟩
    | again waiting | timeOut waiting | enough waiting => exact absurd waiting hstopped
  expired_step hs hwaiting := by
    cases took_of_step hs with
    | hook call => simp [(hookReceiver_frame call).2.1, hwaiting, signal]
    | again waiting fresh more => simp [hwaiting, fresh]
    | timeOut | enough => simp [signal]
  arrival hs _ hsignal := by
    cases took_of_step hs with
    | hook call => exact (hookReceiver_frame call).1
    | again | timeOut | enough => cases hsignal
  check hs hwaiting' hsignal := by
    cases took_of_step hs with
    | hook call => cases hsignal
    | again waiting fresh more => rfl
    | timeOut | enough => cases hwaiting'
  other hs _ hsignal := by
    cases took_of_step hs <;> cases hsignal

end Steps

/-! ## Any run -/

/-- The loop has looked when there were enough frames. -/
def Enough (evs : List Event) : Prop :=
  ∃ done rest, evs = done ++ .look :: rest ∧ expectedFrames ≤ (received done).length

theorem enough_concat {evs : List Event} {e : Event} :
    Enough (evs ++ [e]) ↔ Enough evs ∨ e = .look ∧ expectedFrames ≤ (received evs).length := by
  constructor
  · rintro ⟨done, rest, heq, hall⟩
    obtain rfl | ⟨rest, x, rfl⟩ := List.eq_nil_or_concat rest
    · obtain ⟨rfl, he⟩ := List.append_inj' heq rfl
      exact .inr ⟨List.singleton_inj.mp he, hall⟩
    · rw [List.concat_eq_append, ← List.cons_append, ← List.append_assoc] at heq
      exact .inl ⟨done, rest, (List.append_inj' heq rfl).1, hall⟩
  · rintro (⟨done, rest, rfl, hall⟩ | ⟨rfl, hall⟩)
    · exact ⟨done, rest ++ [e], by simp, hall⟩
    · exact ⟨evs, [], rfl, hall⟩

theorem received_concat (evs : List Event) (e : Event) :
    received (evs ++ [e]) = received evs ++ e.payload.toList := by
  rw [received, List.filterMap_append, List.filterMap_cons, List.filterMap_nil]
  cases e.payload <;> rfl

/-- What is known of the loop after these events. -/
structure Looped (evs : List Event) (s : State) : Prop where
  counts : Counts s (received evs)
  waiting : s.phase = .waiting → ¬ Enough evs ∧ s.message = none
  /-- the flag is cleared only as long as frames are missing -/
  cleared : s.phase = .waiting → s.frameReceived = false → s.totalFramesReceived < expectedFrames
  timeOut : s.phase = .ended false → ¬ Enough evs ∧ s.message.isSome
  enough : s.phase = .ended true → Enough evs ∧ s.message = none
  message : ∀ n, s.message = some n →
    n < expectedFrames ∧ ∃ done, done ++ [.look] <+: evs ∧ n = (received done).length

theorem looped_initial : Looped [] {} where
  counts := counts_initial
  waiting _ := ⟨fun ⟨_, _, h, _⟩ => by simp at h, rfl⟩
  cleared _ h := by cases h
  timeOut h := by cases h
  enough h := by cases h
  message _ h := by cases h

/-- Another frame leaves what the loop has done. -/
theorem Looped.hook {evs : List Event} {s s' : State} {payload : List UInt8} {echoed : Bool}
    (h : Looped evs s) (hs : hookReceiver s payload echoed = some s') :
    Looped (evs ++ [.frame payload echoed]) s' := by
  have hcounts := h.counts.hook hs
  obtain ⟨hfresh, hphase, hmessage, -⟩ := hookReceiver_frame hs
  have henough : Enough (evs ++ [.frame payload echoed]) ↔ Enough evs := by
    rw [enough_concat]
    exact or_iff_left fun hlook => by cases hlook.1
  refine ⟨?_, ?_, ?_, ?_, ?_, ?_⟩
  · rw [received_concat]
    exact hcounts
  · rw [hphase, henough, hmessage]
    exact h.waiting
  · rw [hfresh]
    rintro - ⟨⟩
  · rw [hphase, henough, hmessage]
    exact h.timeOut
  · rw [hphase, henough, hmessage]
    exact h.enough
  · rw [hmessage]
    intro n hn
    obtain ⟨hlt, done, hdone, rfl⟩ := h.message n hn
    exact ⟨hlt, done, hdone.trans (List.prefix_append _ _), rfl⟩

theorem Looped.step {evs : List Event} {s s' : State} {e : Event} (h : Looped evs s)
    (hs : LatencyReceiver.step s e = some s') : Looped (evs ++ [e]) s' := by
  have htotal := h.counts.total
  have hlook : received (evs ++ [.look]) = received evs := by
    rw [received_concat]
    exact List.append_nil _
  cases took_of_step hs with
  | hook call => exact h.hook call
  | again waiting fresh more =>
    have hcounts := h.counts
    obtain ⟨hnot, hmessage⟩ := h.waiting waiting
    refine ⟨?_, ?_, fun _ _ => more, ?_, ?_, ?_⟩
    · rw [hlook]
      exact ⟨hcounts.total, hcounts.inters, hcounts.intras, hcounts.nonVcl, hcounts.readable⟩
    · refine fun _ => ⟨?_, hmessage⟩
      rw [enough_concat, not_or]
      exact ⟨hnot, fun hall => by omega⟩
    all_goals simp [waiting, hmessage]
  | timeOut waiting quiet more =>
    have hcounts := h.counts
    have hnot := (h.waiting waiting).1
    refine ⟨?_, fun h => (by cases h), fun h => (by cases h), ?_, ?_, ?_⟩
    · rw [hlook]
      exact ⟨hcounts.total, hcounts.inters, hcounts.intras, hcounts.nonVcl, hcounts.readable⟩
    · refine fun _ => ⟨?_, rfl⟩
      rw [enough_concat, not_or]
      exact ⟨hnot, fun hall => by omega⟩
    · simp [quiet]
    · rintro _ ⟨⟩
      exact ⟨more, evs, List.prefix_rfl, htotal⟩
  | enough waiting all =>
    have hcounts := h.counts
    have hfresh : s.frameReceived = true :=
      Bool.eq_true_of_not_eq_false fun h' => Nat.not_lt.mpr all (h.cleared waiting h')
    refine ⟨?_, fun h => (by cases h), fun h => (by cases h), ?_, ?_, ?_⟩
    · rw [hlook]
      exact ⟨hcounts.total, hcounts.inters, hcounts.intras, hcounts.nonVcl, hcounts.readable⟩
    · simp [hfresh]
    · exact fun _ => ⟨enough_concat.mpr (.inr ⟨rfl, htotal ▸ all⟩), rfl⟩
    · rintro _ ⟨⟩

/-- What is known of the loop after any run. -/
theorem looped_of_run {evs : List Event} {s : State} (hrun : Run step {} evs s) : Looped evs s :=
  hrun.invariant looped_initial fun _ _ _ _ _ hlooped hs => hlooped.step hs

/-- Whatever comes and whenever the loop looks, the counters are those of the frames that have
come, each by the header of a HEVC frame.  The loop ends for want of frames exactly when it has
looked twice without a frame in between, and only then says how many had come, which are fewer
than it expects.  Else it ends exactly when it looks with enough. -/
theorem receiver_ends_iff {evs : List Event} {s : State} (hrun : Run step {} evs s) :
    Counts s (received evs) ∧
      (s.phase = .ended false ↔ Lapsed (evs.filterMap signal)) ∧
      (s.phase = .ended true ↔ Enough evs) ∧
      (s.message.isSome ↔ Lapsed (evs.filterMap signal)) ∧
      ∀ n, s.message = some n →
        n < expectedFrames ∧ ∃ done, done ++ [.look] <+: evs ∧ n = (received done).length := by
  have h := looped_of_run hrun
  have hlapsed : s.phase = .ended false ↔ Lapsed (evs.filterMap signal) :=
    watch.expired_iff rfl (by simp) hrun
  have hends : (s.phase = .ended true ↔ Enough evs) ∧
      (s.message.isSome ↔ s.phase = .ended false) := by
    cases hphase : s.phase with
    | waiting =>
      obtain ⟨hnot, hmessage⟩ := h.waiting hphase
      simp [hnot, hmessage]
    | ended fresh =>
      cases fresh with
      | false =>
        obtain ⟨hnot, hmessage⟩ := h.timeOut hphase
        simp [hnot, hmessage]
      | true =>
        obtain ⟨henough, hmessage⟩ := h.enough hphase
        simp [henough, hmessage]
  exact ⟨h.counts, hlapsed, hends.1, hends.2.trans hlapsed, h.message⟩

/-- One frame, and then silence. -/
theorem receiver_ends_silent :
    ∃ s, Run step {} [.look, .frame [0, 0, 0, 1, 2] true, .look, .look] s ∧
      s.phase = .ended false ∧ s.ninters = 1 ∧ s.message.isSome := by
  obtain ⟨s, hrun⟩ : ∃ s, Run step {} [.look, .frame [0, 0, 0, 1, 2] true, .look, .look] s :=
    ⟨_, run_get (by decide)⟩
  obtain ⟨hcounts, hlapsed, -, hmessage, -⟩ := receiver_ends_iff hrun
  exact ⟨s, hrun, hlapsed.mpr (by decide), hcounts.inters.trans (by decide),
    hmessage.mpr (by decide)⟩

end RtpBenchmarks.Uvgrtp.LatencyReceiver
