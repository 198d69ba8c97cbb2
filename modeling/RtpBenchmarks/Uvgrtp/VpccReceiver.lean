import RtpBenchmarks.Uvgrtp.LatencySender
import RtpBenchmarks.Uvgrtp.VpccResults

set_option autoImplicit false

/-!
# V-PCC receiver (`uvgrtp/vpcc_receiver.cc`)

The hook keeps for each of the four streams the time of its first and of its last frame, and
`main` takes the earliest of the first times and the latest of the last ones.  Both are 0 until
a frame comes, and so a stream on which none comes counts as one that started at 0.
-/

namespace RtpBenchmarks.Uvgrtp.VpccReceiver

open RtpBenchmarks.Foundation
open RtpBenchmarks.Results
open RtpBenchmarks.Uvgrtp.LatencySender (getCurrentTime getCurrentTime_mono)
open RtpBenchmarks.Uvgrtp.VpccResults
open RtpBenchmarks.V3c (RtpFrame V3cUnitType)

/-! ## The code -/

/-- `hook`, with what the clock shows at its two readings. -/
def hook (results : ReceiveResults) (frame : Option RtpFrame) (now now' : Int) :
    ReceiveResults :=
  let results :=
    if results.packetsReceived = 0 then { results with start := getCurrentTime now } else results
  match frame with
  | none => results
  | some frame =>
    { results with
      last := getCurrentTime now'
      bytesReceived := results.bytesReceived + frame.payload.length
      packetsReceived := results.packetsReceived + 1 }

/-- A call of the hook for a frame on a stream. -/
structure Call where
  stream : V3cUnitType
  frame : RtpFrame
  now : Int
  now' : Int
  deriving DecidableEq, Repr

/-- A call changes the results of its stream. -/
def call (results : V3cUnitType → ReceiveResults) (c : Call) : V3cUnitType → ReceiveResults :=
  fun t => if t = c.stream then hook (results t) (some c.frame) c.now c.now' else results t

/-- The results when the hook has been called, in this order, on the four streams. -/
def receive (calls : List Call) : V3cUnitType → ReceiveResults :=
  calls.foldl call fun _ => {}

/-- `start` and `end` of `main`. -/
def interval (results : V3cUnitType → ReceiveResults) : Int × Int :=
  (earliest fun t => (results t).start, latest fun t => (results t).last)

/-- What `main` writes is the length of the interval. -/
theorem receiveLine_eq (results : V3cUnitType → ReceiveResults) :
    receiveLine results =
      writeReceiveResultsToFile (total fun t => (results t).bytesReceived)
        (total fun t => (results t).packetsReceived)
        (toUInt64 ((interval results).2 - (interval results).1)) :=
  rfl

/-! ## Frames of a stream -/

/-- The calls for a stream. -/
def onStream (calls : List Call) (t : V3cUnitType) : List Call :=
  calls.filter fun c => t = c.stream

theorem mem_onStream {calls : List Call} {t : V3cUnitType} {c : Call} :
    c ∈ onStream calls t ↔ c ∈ calls ∧ t = c.stream := by
  rw [onStream, List.mem_filter, decide_eq_true_iff]

/-- The calls of a stream's hook, one after the other. -/
def received (cs : List Call) : ReceiveResults :=
  cs.foldl (fun results c => hook results (some c.frame) c.now c.now') {}

/-- The calls of other streams do not matter to a stream. -/
theorem receive_eq (calls : List Call) (t : V3cUnitType) :
    receive calls t = received (onStream calls t) := by
  induction calls using List.reverseRecOn with
  | nil => rfl
  | append_singleton calls c ih =>
    rw [receive, List.foldl_append, onStream, List.filter_append, List.filter_singleton]
    change call (receive calls) c t = received (onStream calls t ++ _)
    unfold call
    by_cases h : t = c.stream
    · rw [if_pos h, ih, received, received, List.foldl_append]
      simp [h]
    · rw [if_neg h, ih]
      simp [h]

/-- A stream without frames has the times 0, any other the times of its first and last. -/
theorem received_times (cs : List Call) :
    (received cs).packetsReceived = cs.length ∧
      (received cs).start = (cs.head?.map fun c => getCurrentTime c.now).getD 0 ∧
      (received cs).last = (cs.getLast?.map fun c => getCurrentTime c.now').getD 0 := by
  induction cs using List.reverseRecOn with
  | nil => exact ⟨rfl, rfl, rfl⟩
  | append_singleton cs c ih =>
    obtain ⟨hpackets, hstart, -⟩ := ih
    have hcall : received (cs ++ [c]) = hook (received cs) (some c.frame) c.now c.now' := by
      rw [received, List.foldl_append]
      rfl
    rw [hcall]
    unfold hook
    cases cs with
    | nil =>
      exact ⟨rfl, rfl, rfl⟩
    | cons d ds =>
      rw [if_neg (by rw [hpackets]; exact Nat.succ_ne_zero _), List.getLast?_concat]
      refine ⟨?_, hstart, rfl⟩
      rw [List.length_append, ← hpackets]
      rfl

/-! ## The interval -/

/-- From the earliest to the latest time at which a frame is received. -/
structure Spans (calls : List Call) (start stop : Int) : Prop where
  earliest : ∃ c ∈ calls, getCurrentTime c.now = start
  start_le : ∀ c ∈ calls, start ≤ getCurrentTime c.now
  latest : ∃ c ∈ calls, getCurrentTime c.now' = stop
  le_stop : ∀ c ∈ calls, getCurrentTime c.now' ≤ stop

/-- A stream's first frame is the earliest of all, and a stream's last frame is the latest. -/
structure EndsOfStreams (calls : List Call) : Prop where
  first : ∀ c ∈ calls, ∃ t, t.hasStream = true ∧ ∀ d ∈ (onStream calls t).head?,
    getCurrentTime d.now ≤ getCurrentTime c.now
  last : ∀ c ∈ calls, ∃ t, t.hasStream = true ∧ ∀ d ∈ (onStream calls t).getLast?,
    getCurrentTime c.now' ≤ getCurrentTime d.now'

/-- Every stream has received a frame. -/
def NoneSilent (calls : List Call) : Prop :=
  ∀ t, t.hasStream = true → ∃ c ∈ calls, t = c.stream

/-- The clock does not go back between the frames of a stream. -/
def InTime (calls : List Call) : Prop :=
  ∀ t, t.hasStream = true →
    (onStream calls t).Pairwise fun c d => c.now ≤ d.now ∧ c.now' ≤ d.now'

section Interval

variable {calls : List Call} {t : V3cUnitType} {c : Call}

/-- The first time of a stream. -/
theorem start_eq (h : (onStream calls t).head? = some c) :
    (receive calls t).start = getCurrentTime c.now := by
  rw [receive_eq, (received_times _).2.1, h]
  rfl

/-- The last time of a stream. -/
theorem last_eq (h : (onStream calls t).getLast? = some c) :
    (receive calls t).last = getCurrentTime c.now' := by
  rw [receive_eq, (received_times _).2.2, h]
  rfl

theorem mem_of_head? (h : (onStream calls t).head? = some c) : c ∈ calls :=
  (mem_onStream.mp (List.mem_of_head? h)).1

theorem mem_of_getLast? (h : (onStream calls t).getLast? = some c) : c ∈ calls :=
  (mem_onStream.mp (List.mem_of_getLast? h)).1

theorem onStream_ne_nil (h : ∃ c ∈ calls, t = c.stream) : onStream calls t ≠ [] := by
  obtain ⟨c, hc, ht⟩ := h
  exact List.ne_nil_of_mem (mem_onStream.mpr ⟨hc, ht⟩)

/-- A stream that no frame came on started at 0. -/
theorem start_of_silent (h : ¬ ∃ c ∈ calls, t = c.stream) : (receive calls t).start = 0 := by
  have hnil : onStream calls t = [] := by
    rw [onStream, List.filter_eq_nil_iff]
    intro c hc ht
    exact h ⟨c, hc, of_decide_eq_true ht⟩
  rw [receive_eq, hnil]
  rfl

/-- When the clock does not go back, ends of streams are the ends of the frames. -/
theorem endsOfStreams_of_inTime (hstreams : ∀ c ∈ calls, c.stream.hasStream = true)
    (h : InTime calls) : EndsOfStreams calls where
  first c hc := by
    refine ⟨c.stream, hstreams c hc, fun d hd => ?_⟩
    have hmem : c ∈ onStream calls c.stream := mem_onStream.mpr ⟨hc, rfl⟩
    have hpair := h c.stream (hstreams c hc)
    obtain ⟨rest, hrest⟩ := List.head?_eq_some_iff.mp hd
    rw [hrest] at hmem hpair
    rcases List.mem_cons.mp hmem with rfl | hmem
    · exact le_refl _
    · exact getCurrentTime_mono ((List.pairwise_cons.mp hpair).1 c hmem).1
  last c hc := by
    refine ⟨c.stream, hstreams c hc, fun d hd => ?_⟩
    have hmem : c ∈ onStream calls c.stream := mem_onStream.mpr ⟨hc, rfl⟩
    have hpair := h c.stream (hstreams c hc)
    obtain ⟨front, hfront⟩ := List.getLast?_eq_some_iff.mp hd
    rw [hfront] at hmem hpair
    rcases List.mem_append.mp hmem with hmem | hmem
    · exact getCurrentTime_mono ((List.pairwise_append.mp hpair).2.2 c hmem d (by simp)).2
    · rw [List.mem_singleton.mp hmem]

/-- The interval of frames with positive times. -/
theorem spans_iff (hpos : ∀ c ∈ calls, 0 < getCurrentTime c.now) :
    Spans calls (interval (receive calls)).1 (interval (receive calls)).2 ↔
      NoneSilent calls ∧ EndsOfStreams calls := by
  obtain ⟨t, ht, hstart⟩ := exists_eq_earliest fun t => (receive calls t).start
  obtain ⟨u, hu, hstop⟩ := exists_eq_latest fun t => (receive calls t).last
  have hle := fun t ht => @earliest_le (fun t => (receive calls t).start) t ht
  have hge := fun t ht => @le_latest (fun t => (receive calls t).last) t ht
  unfold interval
  constructor
  · intro h
    refine ⟨fun v hv => ?_, fun c hc => ⟨t, ht, fun d hd => ?_⟩,
      fun c hc => ⟨u, hu, fun d hd => ?_⟩⟩
    · by_contra hsilent
      obtain ⟨c, hc, hearliest⟩ := h.earliest
      have hzero := hle v hv
      rw [start_of_silent hsilent] at hzero
      have hc0 := hpos c hc
      omega
    · rw [← start_eq hd, ← hstart]
      exact h.start_le c hc
    · rw [← last_eq hd, ← hstop]
      exact h.le_stop c hc
  · rintro ⟨hall, hends⟩
    have hfirst : ∀ v, v.hasStream = true → ∃ d, (onStream calls v).head? = some d := by
      intro v hv
      exact Option.isSome_iff_exists.mp (List.isSome_head?.mpr (onStream_ne_nil (hall v hv)))
    have hlast : ∀ v, v.hasStream = true → ∃ d, (onStream calls v).getLast? = some d := by
      intro v hv
      exact Option.isSome_iff_exists.mp (List.getLast?_isSome.mpr (onStream_ne_nil (hall v hv)))
    refine ⟨?_, fun c hc => ?_, ?_, fun c hc => ?_⟩
    · obtain ⟨d, hd⟩ := hfirst t ht
      exact ⟨d, mem_of_head? hd, by rw [hstart, start_eq hd]⟩
    · obtain ⟨v, hv, hmin⟩ := hends.first c hc
      obtain ⟨d, hd⟩ := hfirst v hv
      refine (hle v hv).trans ?_
      rw [start_eq hd]
      exact hmin d hd
    · obtain ⟨d, hd⟩ := hlast u hu
      exact ⟨d, mem_of_getLast? hd, by rw [hstop, last_eq hd]⟩
    · obtain ⟨v, hv, hmax⟩ := hends.last c hc
      obtain ⟨d, hd⟩ := hlast v hv
      refine le_trans ?_ (hge v hv)
      rw [last_eq hd]
      exact hmax d hd

end Interval

/-- The interval spans the frames if and only if every stream has received one and the ends are
ends of streams; the latter is so when the clock does not go back. -/
theorem vpccReceiver_interval {calls : List Call}
    (hstreams : ∀ c ∈ calls, c.stream.hasStream = true)
    (hpos : ∀ c ∈ calls, 0 < getCurrentTime c.now) :
    (Spans calls (interval (receive calls)).1 (interval (receive calls)).2 ↔
      NoneSilent calls ∧ EndsOfStreams calls) ∧
    (InTime calls →
      (Spans calls (interval (receive calls)).1 (interval (receive calls)).2 ↔
        NoneSilent calls)) := by
  refine ⟨spans_iff hpos, fun htime => ?_⟩
  rw [spans_iff hpos]
  exact and_iff_left (endsOfStreams_of_inTime hstreams htime)

/-- A frame on each stream. -/
theorem vpccReceiver_interval_four :
    Spans ([V3cUnitType.ad, .ovd, .gvd, .avd].map fun t => ⟨t, ⟨[]⟩, 5000, 6000⟩) 5 6 := by
  have hiff := (@vpccReceiver_interval
    ([V3cUnitType.ad, .ovd, .gvd, .avd].map fun t => ⟨t, ⟨[]⟩, 5000, 6000⟩)
    (by decide) (by decide)).2
  refine (hiff fun t ht => ?_).mpr fun t ht => ?_
  · cases t with
    | ad | ovd | gvd | avd => decide
    | vps | pvd | cad => cases ht
  · cases t with
    | ad | ovd | gvd | avd => decide
    | vps | pvd | cad => cases ht

/-- A single frame, on the atlas stream: the interval starts at 0 instead of at the frame. -/
theorem vpccReceiver_interval_silent :
    interval (receive [⟨.ad, ⟨[]⟩, 5000, 6000⟩]) = (0, 6) ∧
      ¬ Spans [⟨.ad, ⟨[]⟩, 5000, 6000⟩] (interval (receive [⟨.ad, ⟨[]⟩, 5000, 6000⟩])).1
        (interval (receive [⟨.ad, ⟨[]⟩, 5000, 6000⟩])).2 := by
  have hzero : interval (receive [⟨.ad, ⟨[]⟩, 5000, 6000⟩]) = (0, 6) := by decide
  refine ⟨hzero, fun h => ?_⟩
  obtain ⟨c, hc, hstart⟩ := h.earliest
  rw [List.mem_singleton.mp hc] at hstart
  exact absurd hstart (by decide)

end RtpBenchmarks.Uvgrtp.VpccReceiver
