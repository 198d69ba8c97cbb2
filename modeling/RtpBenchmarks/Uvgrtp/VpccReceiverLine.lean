import RtpBenchmarks.Uvgrtp.VpccLoop

set_option autoImplicit false

/-!
# The line of the V-PCC receiver (`uvgrtp/vpcc_receiver.cc`)

`main` writes its line when it has destroyed the streams.  The hook may be called without a
frame; then it sets the start time of a stream that has not received one, and `frame_received`
stays as it is.
-/

namespace RtpBenchmarks.Uvgrtp.VpccReceiver

open RtpBenchmarks.Foundation
open RtpBenchmarks.Results
open RtpBenchmarks.Uvgrtp.VpccLoop (Hook calls)
open RtpBenchmarks.Uvgrtp.VpccResults
open RtpBenchmarks.V3c (RtpFrame V3cUnitType)

/-! ## The code -/

/-- What `hook` is called with, and what the clock shows at its two readings. -/
structure Input where
  frame : Option RtpFrame
  now : Int
  now' : Int
  deriving DecidableEq, Repr

/-- `hook`, which keeps the results of its stream. -/
def streamHook : Hook ReceiveResults Input where
  run results f := hook results f.frame f.now f.now'
  sets f := f.frame.isSome

/-- A call with a frame. -/
def Input.toCall (t : V3cUnitType) (f : Input) : Option Call :=
  f.frame.map fun frame => { stream := t, frame, now := f.now, now' := f.now' }

def frameCall : VpccLoop.Event Input → Option Call
  | .call t f => f.toCall t
  | .look | .destroy => none

/-- The frames that come, on all streams. -/
def frames (evs : List (VpccLoop.Event Input)) : List Call :=
  evs.filterMap frameCall

/-- The size of the frame. -/
def Call.size (c : Call) : Nat :=
  c.frame.payload.length

/-! ## A stream -/

/-- The frames that come on a stream. -/
theorem onStream_frames (evs : List (VpccLoop.Event Input)) (t : V3cUnitType) :
    onStream (frames evs) t = (calls evs t).filterMap (Input.toCall t) := by
  rw [onStream, frames, calls, List.filter_filterMap, List.filterMap_filterMap]
  congr 1
  funext e
  cases e with
  | look | destroy => rfl
  | call u f =>
    rw [VpccLoop.on_call, frameCall, Input.toCall]
    cases hframe : f.frame with
    | none =>
      by_cases hu : u = t
      · rw [if_pos hu, Option.bind_some, Input.toCall, hframe]
        rfl
      · rw [if_neg hu]
        rfl
    | some frame =>
      by_cases hu : u = t
      · subst hu
        rw [if_pos rfl, Option.bind_some, Input.toCall, hframe]
        simp
      · rw [if_neg hu]
        simp [Ne.symm hu]

theorem received_concat (cs : List Call) (c : Call) :
    received (cs ++ [c]) = hook (received cs) (some c.frame) c.now c.now' := by
  rw [received, List.foldl_append]
  rfl

/-- A call without a frame changes at most the start time. -/
theorem hook_none (r : ReceiveResults) (now now' : Int) :
    (hook r none now now').packetsReceived = r.packetsReceived ∧
      (hook r none now now').bytesReceived = r.bytesReceived ∧
      (hook r none now now').last = r.last := by
  unfold hook
  split_ifs <;> exact ⟨rfl, rfl, rfl⟩

/-- The first frame sets all of the results. -/
theorem hook_first {r : ReceiveResults} (frame : RtpFrame) (now now' : Int)
    (hpackets : r.packetsReceived = 0) (hbytes : r.bytesReceived = 0) :
    hook r (some frame) now now' = hook {} (some frame) now now' := by
  cases r
  cases hpackets
  cases hbytes
  rfl

/-- Calls without a frame do not matter to a stream that has received one, and to one that has
not only for its start time. -/
theorem results_spec (t : V3cUnitType) (fs : List Input) :
    (fs.foldl streamHook.run {}).packetsReceived = (fs.filterMap (Input.toCall t)).length ∧
      (fs.foldl streamHook.run {}).bytesReceived =
        ((fs.filterMap (Input.toCall t)).map Call.size).sum ∧
      (fs.filterMap (Input.toCall t) ≠ [] →
        fs.foldl streamHook.run {} = received (fs.filterMap (Input.toCall t))) := by
  induction fs using List.reverseRecOn with
  | nil => exact ⟨rfl, rfl, fun h => absurd rfl h⟩
  | append_singleton fs f ih =>
    have hcall : (fs ++ [f]).foldl streamHook.run {} =
        hook (fs.foldl streamHook.run {}) f.frame f.now f.now' := by
      rw [List.foldl_append]
      rfl
    rw [hcall, List.filterMap_append, List.filterMap_cons, List.filterMap_nil, Input.toCall]
    generalize fs.foldl streamHook.run {} = r at ih ⊢
    generalize fs.filterMap (Input.toCall t) = cs at ih ⊢
    obtain ⟨hpackets, hbytes, hsame⟩ := ih
    cases hframe : f.frame with
    | none =>
      dsimp only [Option.map_none]
      rw [List.append_nil]
      obtain ⟨hpackets', hbytes', -⟩ := hook_none r f.now f.now'
      refine ⟨hpackets'.trans hpackets, hbytes'.trans hbytes, fun hne => ?_⟩
      have hpos : r.packetsReceived ≠ 0 := by
        rw [hpackets]
        exact fun h => hne (List.length_eq_zero_iff.mp h)
      -- the start time is set for good
      rw [← hsame hne]
      exact if_neg hpos
    | some frame =>
      dsimp only [Option.map_some]
      have hone : hook r (some frame) f.now f.now' =
          received (cs ++ [⟨t, frame, f.now, f.now'⟩]) := by
        rw [received_concat]
        by_cases hnil : cs = []
        · subst hnil
          exact hook_first frame f.now f.now' hpackets hbytes
        · rw [hsame hnil]
      refine ⟨?_, ?_, fun _ => hone⟩
      · rw [hone, (received_times _).1]
      · rw [List.map_append, List.sum_append, ← hbytes]
        unfold hook
        split_ifs <;> rfl

/-! ## The four streams -/

/-- Of what comes on the four streams, a sum is the sum over each of them. -/
theorem sum_onStream (f : Call → Nat) {cs : List Call}
    (h : ∀ c ∈ cs, c.stream.hasStream = true) :
    ((onStream cs .ad).map f).sum + ((onStream cs .ovd).map f).sum +
      ((onStream cs .gvd).map f).sum + ((onStream cs .avd).map f).sum = (cs.map f).sum := by
  induction cs with
  | nil => rfl
  | cons c cs ih =>
    obtain ⟨hc, hcs⟩ := List.forall_mem_cons.mp h
    have hcons (t : V3cUnitType) : ((onStream (c :: cs) t).map f).sum =
        (if t = c.stream then f c else 0) + ((onStream cs t).map f).sum := by
      rw [onStream, List.filter_cons]
      by_cases ht : t = c.stream
      · rw [if_pos (decide_eq_true ht), if_pos ht, List.map_cons, List.sum_cons]
        rfl
      · rw [if_neg (by simpa using ht), if_neg ht, Nat.zero_add]
        rfl
    rw [hcons, hcons, hcons, hcons, List.map_cons, List.sum_cons, ← ih hcs]
    cases hstream : c.stream with
    | ad | ovd | gvd | avd =>
      simp only [if_true, reduceCtorEq, if_false]
      omega
    | vps | pvd | cad =>
      rw [hstream] at hc
      cases hc

/-- In any run: the loop is over exactly when it has looked twice without a frame in between.
The line then has the bytes and the number of all frames that have come on any stream, also
after the loop, and the results of a stream that has received a frame are those of its
frames. -/
theorem receiver_line {evs : List (VpccLoop.Event Input)} {s : VpccLoop.State ReceiveResults}
    (hrun : Run (VpccLoop.step streamHook) { results := fun _ => {} } evs s) :
    (s.phase ≠ .waiting ↔ Lapsed (evs.filterMap (VpccLoop.signal streamHook))) ∧
      digitRuns (receiveLine s.results) =
        [((frames evs).map Call.size).sum % 2 ^ 64, (frames evs).length % 2 ^ 64,
          toUInt64 ((interval s.results).2 - (interval s.results).1)] ∧
      ∀ t, onStream (frames evs) t ≠ [] → s.results t = receive (frames evs) t := by
  obtain ⟨hover, hresults, hstreams⟩ := VpccLoop.run_spec hrun
  have hspec (t : V3cUnitType) : (s.results t).packetsReceived = (onStream (frames evs) t).length ∧
      (s.results t).bytesReceived = ((onStream (frames evs) t).map Call.size).sum ∧
      (onStream (frames evs) t ≠ [] → s.results t = received (onStream (frames evs) t)) := by
    rw [hresults, onStream_frames]
    exact results_spec t (calls evs t)
  have hall : ∀ c ∈ frames evs, c.stream.hasStream = true := by
    intro c hc
    obtain ⟨e, he, hcall⟩ := List.mem_filterMap.mp hc
    cases e with
    | look | destroy => cases hcall
    | call t f =>
      obtain ⟨frame, -, rfl⟩ := Option.map_eq_some_iff.mp hcall
      exact hstreams t f he
  have hlength (cs : List Call) : (cs.map fun _ => 1).sum = cs.length := by simp
  refine ⟨hover, ?_, fun t hne => ?_⟩
  · rw [receiveLine_eq, digitRuns_receive, ← sum_onStream Call.size hall, ← hlength,
      ← sum_onStream (fun _ => 1) hall]
    simp only [total, hspec, hlength]
  · rw [receive_eq]
    exact (hspec t).2.2 hne

/-- Two frames on the atlas stream, one of them after the loop, and a call without one. -/
theorem receiver_line_two :
    ∃ s, Run (VpccLoop.step streamHook) { results := fun _ => {} }
        [.look, .call .ad ⟨some ⟨[1, 2]⟩, 5000, 6000⟩, .look, .call .avd ⟨none, 7000, 7000⟩, .look,
          .call .ad ⟨some ⟨[3]⟩, 8000, 9000⟩, .destroy, .destroy] s ∧
      s.phase ≠ .waiting ∧ (digitRuns (receiveLine s.results)).take 2 = [3, 2] := by
  obtain ⟨s, hrun⟩ : ∃ s, Run (VpccLoop.step streamHook) { results := fun _ => {} }
      [.look, .call .ad ⟨some ⟨[1, 2]⟩, 5000, 6000⟩, .look, .call .avd ⟨none, 7000, 7000⟩, .look,
        .call .ad ⟨some ⟨[3]⟩, 8000, 9000⟩, .destroy, .destroy] s := ⟨_, run_get (by decide)⟩
  obtain ⟨hover, hline, -⟩ := receiver_line hrun
  refine ⟨s, hrun, hover.mpr (by decide), ?_⟩
  rw [hline]
  rfl

end RtpBenchmarks.Uvgrtp.VpccReceiver
