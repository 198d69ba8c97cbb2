import RtpBenchmarks.Ffmpeg.LatencySender
import RtpBenchmarks.Live555.LatencySender
import RtpBenchmarks.Uvgrtp.LatencySender

set_option autoImplicit false

/-!
# The averages that the three latency senders report

Each program keeps totals and counters for the intra frames, for the inter frames and
for the overall average, and updates them on branches of its own.  For a sequence of
received frames they are given in closed form here: as averages over the frames that are
counted.  The overall average is then that over the intra and the inter frames exactly if
what one of the two counts and the other does not evens out.

* uvgRTP counts the same frames in both.
* Live555 counts every frame in `frames`, and only intra and inter frames in the total.
* FFmpeg counts every packet in both, but not the last of 596 in the total.
-/

namespace RtpBenchmarks.Latency

open RtpBenchmarks.Foundation

/-! ## uvgRTP -/

section Uvgrtp

open RtpBenchmarks.Uvgrtp.LatencySender
open RtpBenchmarks.V3c (RtpFrame)

/-- What is printed at the end of `sender`. -/
def uvgrtpReport (s : State) : Report where
  frames := s.frames
  intra := { total := s.totalIntra, count := s.nintras }
  inter := { total := s.totalInter, count := s.ninters }
  avg := { total := s.total, count := s.frames }

/-- A call of the hook: the send time recorded last, the frame, and the times read from the
clock. -/
structure Call where
  sent : Int
  frame : RtpFrame
  now : Int
  now' : Int
  now'' : Int
  deriving DecidableEq, Repr

/-- A call of the hook after the sender has recorded a send time. -/
def hookCall (format : Format) (s : State) (c : Call) : Option State :=
  hookSender format { s with frameSendTime := c.sent } (some c.frame) c.now c.now' c.now''

/-- The latency of a call in milliseconds. -/
def Call.ms (c : Call) : Nat :=
  latencyMs c.sent c.now

/-- The hook counts the frame as one of this kind. -/
def Call.counts (format : Format) (kind : NaluKind) (c : Call) : Bool :=
  format.naluKind c.frame.payload = some kind

variable (format : Format) (calls : List Call)

/-- The intra, the inter, and all frames that are counted. -/
def intraCalls : Average :=
  .ofList (Call.counts format .intra) Call.ms calls

def interCalls : Average :=
  .ofList (Call.counts format .inter) Call.ms calls

def countedCalls : Average :=
  (intraCalls format calls).combine (interCalls format calls)

/-- The totals and the counters are those of the frames that are counted. -/
structure Tallied (s : State) : Prop where
  intra : (intraCalls format calls).Stored s.totalIntra s.nintras
  inter : (interCalls format calls).Stored s.totalInter s.ninters
  all : (countedCalls format calls).Stored s.total s.frames

variable {format calls}

/-- The logs have no part in the counters. -/
theorem logFrame_counts (format : Format) (s : State) (kind : NaluKind) (diff : Nat)
    (now now' : Int) :
    (logFrame format s kind diff now now').nintras = s.nintras ∧
      (logFrame format s kind diff now now').ninters = s.ninters ∧
      (logFrame format s kind diff now now').frames = s.frames := by
  unfold logFrame
  split_ifs <;> cases kind <;> exact ⟨rfl, rfl, rfl⟩

/-- The counters after a call. -/
theorem hookCall_counts {s s' : State} {c : Call} {kind : NaluKind}
    (hkind : format.naluKind c.frame.payload = some kind) (h : hookCall format s c = some s') :
    s'.nintras = s.nintras + (if kind = .intra then 1 else 0) ∧
    s'.ninters = s.ninters + (if kind = .inter then 1 else 0) ∧
    s'.frames = s.frames + (if kind = .nonVcl then 0 else 1) := by
  simp only [hookCall, hookSender, hkind, Option.some.injEq] at h
  subst h
  obtain ⟨hintras, hinters, hframes⟩ := logFrame_counts format
    (addLatency { s with frameSendTime := c.sent } kind
      (getDiff { s with frameSendTime := c.sent } c.now)) kind
    (getDiff { s with frameSendTime := c.sent } c.now) c.now' c.now''
  simp only [hintras, hinters, hframes]
  cases kind <;> exact ⟨rfl, rfl, rfl⟩

/-- A call is selected by the kind of its frame. -/
theorem ofCalls_concat {c : Call} {kind : NaluKind}
    (hkind : format.naluKind c.frame.payload = some kind) (k : NaluKind) :
    Average.ofList (Call.counts format k) Call.ms (calls ++ [c]) =
      if kind = k then (Average.ofList (Call.counts format k) Call.ms calls).add c.ms
      else Average.ofList (Call.counts format k) Call.ms calls := by
  rw [Average.ofList_concat]
  simp [Call.counts, hkind]

theorem intraCalls_concat {c : Call} {kind : NaluKind}
    (hkind : format.naluKind c.frame.payload = some kind) :
    intraCalls format (calls ++ [c]) =
      if kind = .intra then (intraCalls format calls).add c.ms else intraCalls format calls :=
  ofCalls_concat hkind .intra

theorem interCalls_concat {c : Call} {kind : NaluKind}
    (hkind : format.naluKind c.frame.payload = some kind) :
    interCalls format (calls ++ [c]) =
      if kind = .inter then (interCalls format calls).add c.ms else interCalls format calls :=
  ofCalls_concat hkind .inter

/-- A call adds the latency of its frame to the averages that count it. -/
theorem Tallied.call {s s' : State} {c : Call} (h : Tallied format calls s)
    (hs : hookCall format s c = some s') : Tallied format (calls ++ [c]) s' := by
  obtain ⟨kind, hkind⟩ : ∃ kind, format.naluKind c.frame.payload = some kind := by
    cases hkind : format.naluKind c.frame.payload with
    | none => simp [hookCall, hookSender, hkind] at hs
    | some kind => exact ⟨kind, rfl⟩
  obtain ⟨hnintras, hninters, hframes⟩ := hookCall_counts hkind hs
  have hadds := hookSender_adds hkind hs
  have hintras : intraCalls format (calls ++ [c]) = _ := intraCalls_concat hkind
  have hinters : interCalls format (calls ++ [c]) = _ := interCalls_concat hkind
  cases kind with
  | intra =>
    obtain ⟨htotal, hintra, hinter⟩ := hadds
    rw [if_pos rfl] at hintras
    rw [if_neg (by decide)] at hinters
    constructor
    · rw [hintras, hintra, hnintras]
      exact h.intra.add c.ms
    · rw [hinters, hinter, hninters]
      exact h.inter
    · rw [countedCalls, hintras, hinters, Average.combine_add_left, htotal, hframes]
      exact h.all.add c.ms
  | inter =>
    obtain ⟨htotal, hinter, hintra⟩ := hadds
    rw [if_neg (by decide)] at hintras
    rw [if_pos rfl] at hinters
    constructor
    · rw [hintras, hintra, hnintras]
      exact h.intra
    · rw [hinters, hinter, hninters]
      exact h.inter.add c.ms
    · rw [countedCalls, hintras, hinters, Average.combine_add_right, htotal, hframes]
      exact h.all.add c.ms
  | nonVcl =>
    obtain ⟨htotal, hintra, hinter⟩ := hadds
    rw [if_neg (by decide)] at hintras hinters
    constructor
    · rw [hintras, hintra, hnintras]
      exact h.intra
    · rw [hinters, hinter, hninters]
      exact h.inter
    · rw [countedCalls, hintras, hinters, htotal, hframes]
      exact h.all

theorem tallied_of_run {s : State} (hrun : Run (hookCall format) { queue := [] } calls s) :
    Tallied format calls s := by
  refine Run.invariant (I := fun done s => Tallied format done s) ?_
    (fun _ _ _ _ _ h hs => h.call hs) hrun
  exact ⟨⟨rfl, rfl⟩, ⟨rfl, rfl⟩, ⟨rfl, rfl⟩⟩

/-- In exact arithmetic the report of uvgRTP is always consistent. -/
theorem uvgrtpReport_consistent {s : State}
    (hrun : Run (hookCall format) { queue := [] } calls s)
    (hexact : (countedCalls format calls).total < 2 ^ 64) : (uvgrtpReport s).Consistent := by
  have h := tallied_of_run hrun
  have hsum : (intraCalls format calls).total + (interCalls format calls).total < 2 ^ 64 :=
    hexact
  rw [Report.consistent_iff]
  simp only [uvgrtpReport, h.all.eq_of_lt hexact, h.intra.eq_of_lt (by omega),
    h.inter.eq_of_lt (by omega), countedCalls]

end Uvgrtp

/-! ## Live555 and FFmpeg -/

/-- A frame that is received: the type in its header and its latency in microseconds. -/
structure Received where
  nalType : UInt8
  diff : Nat
  deriving DecidableEq, Repr

namespace Received

def ms (f : Received) : Nat :=
  f.diff / 1000

def intra (f : Received) : Bool :=
  f.nalType = 19

def inter (f : Received) : Bool :=
  f.nalType = 1

/-- The frames that both programs tell apart from all others. -/
def vcl (f : Received) : Bool :=
  f.intra || f.inter

end Received

/-- The average over the intra and the inter frames. -/
def vclAverage (fs : List Received) : Average :=
  .ofList Received.vcl Received.ms fs

theorem combine_intra_inter (fs : List Received) :
    (Average.ofList Received.intra Received.ms fs).combine (.ofList Received.inter Received.ms fs) =
      vclAverage fs := by
  refine Average.ofList_combine fun f hintra hinter => ?_
  simp only [Received.intra, Received.inter, decide_eq_true_eq] at hintra hinter
  rw [hintra] at hinter
  exact absurd hinter (by decide)

/-! ### Live555 -/

/-- The counters of Live555 after some frames. -/
def live555Counters (fs : List Received) : Live555.LatencySender.Counters :=
  fs.foldl (fun c f => c.count f.nalType f.diff) {}

/-- What Live555 divides for the overall average: the total over the intra and inter frames
by the number of all frames. -/
def live555Average (fs : List Received) : Average where
  total := (vclAverage fs).total
  count := fs.length

theorem live555Counters_concat (fs : List Received) (f : Received) :
    live555Counters (fs ++ [f]) = (live555Counters fs).count f.nalType f.diff := by
  simp [live555Counters]

/-- The totals and counters of Live555. -/
theorem live555_stored (fs : List Received) :
    (Average.ofList Received.intra Received.ms fs).Stored (live555Counters fs).intraTotal
      (live555Counters fs).nintras ∧
    (Average.ofList Received.inter Received.ms fs).Stored (live555Counters fs).interTotal
      (live555Counters fs).ninters ∧
    (live555Average fs).Stored (live555Counters fs).frameTotal (live555Counters fs).frames := by
  induction fs using List.reverseRecOn with
  | nil => exact ⟨⟨rfl, rfl⟩, ⟨rfl, rfl⟩, ⟨rfl, rfl⟩⟩
  | append_singleton fs f ih =>
    obtain ⟨hintra, hinter, hall⟩ := ih
    have hadd := hall.add f.ms
    simp only [live555Counters_concat, live555Average, vclAverage, Average.ofList_concat,
      Received.vcl, Received.intra, Received.inter, List.length_append, List.length_singleton,
      Live555.LatencySender.Counters.count]
    by_cases h19 : f.nalType = 19
    · simp only [h19, if_true, decide_true, Bool.true_or]
      exact ⟨hintra.add f.ms, hinter, hadd⟩
    by_cases h1 : f.nalType = 1
    · simp only [h1, if_true, decide_true, Bool.or_true]
      exact ⟨hintra, hinter.add f.ms, hadd⟩
    · simp only [h19, h1, if_false, decide_false, Bool.or_false, Bool.false_eq_true]
      exact ⟨hintra, hinter, hall.total, hadd.count⟩

/-- What Live555 leaves out of the total evens out: there is nothing else than intra and
inter frames, or these all come back within the first millisecond. -/
def Live555Even (fs : List Received) : Prop :=
  (∀ f ∈ fs, f.vcl) ∨ (∃ f ∈ fs, f.vcl) ∧ ∀ f ∈ fs, f.vcl → f.ms = 0

theorem live555_average_iff (fs : List Received) :
    (live555Average fs).value = (vclAverage fs).value ↔ Live555Even fs := by
  have hcount : (vclAverage fs).count = fs.length ↔ ∀ f ∈ fs, f.vcl :=
    Average.ofList_count_eq_length_iff
  have hzero : (vclAverage fs).count = 0 ↔ ∀ f ∈ fs, ¬ f.vcl := Average.ofList_count_eq_zero_iff
  have htotal : (vclAverage fs).total = 0 ↔ ∀ f ∈ fs, f.vcl → f.ms = 0 :=
    Average.ofList_total_eq_zero_iff
  have hle : (vclAverage fs).count ≤ fs.length := Average.ofList_count_le
  have hsome : (∃ f ∈ fs, f.vcl) ↔ (vclAverage fs).count ≠ 0 := by
    rw [Ne, hzero]
    push Not
    rfl
  rw [Live555Even, hsome, ← hcount, ← htotal]
  by_cases hne : (vclAverage fs).count = 0
  · have hnone := Average.value_eq_none_iff.mpr hne
    rw [hnone, Average.value_eq_none_iff]
    simp only [live555Average, hne]
    omega
  · rw [Average.value_eq_value_iff (by simp only [live555Average]; omega) hne]
    have hcancel : (vclAverage fs).total * (vclAverage fs).count =
        (vclAverage fs).total * fs.length ↔
          (vclAverage fs).count = fs.length ∨ (vclAverage fs).total = 0 :=
      mul_eq_mul_left_iff
    simp only [live555Average, hcancel, hne, ne_eq, not_false_eq_true, true_and]

/-! ### FFmpeg -/

/-- The counters of FFmpeg after some packets. -/
def ffmpegCounters (fs : List Received) : Ffmpeg.LatencySender.Counters :=
  fs.foldl (fun c f => c.count f.nalType f.diff) {}

/-- What FFmpeg divides for the overall average: the total over the first 595 packets by
the number of all packets. -/
def ffmpegAverage (fs : List Received) : Average where
  total := (Average.ofAll Received.ms (fs.take 595)).total
  count := fs.length

theorem ffmpegCounters_concat (fs : List Received) (f : Received) :
    ffmpegCounters (fs ++ [f]) = (ffmpegCounters fs).count f.nalType f.diff := by
  simp [ffmpegCounters]

theorem addMs_natCast (total diff : Nat) :
    Ffmpeg.LatencySender.addMs total diff = (total + diff / 1000) % 2 ^ 64 := by
  have hdiv : ((diff : Int).tdiv 1000) = ((diff / 1000 : Nat) : Int) := rfl
  unfold Ffmpeg.LatencySender.addMs
  rw [hdiv]
  omega

/-- The total of FFmpeg with one packet more. -/
theorem ffmpegAverage_concat (fs : List Received) (f : Received) :
    (ffmpegAverage (fs ++ [f])).total =
      if fs.length + 1 < 596 then (ffmpegAverage fs).total + f.ms
      else (ffmpegAverage fs).total := by
  split_ifs with hlt
  · have htake : fs.take 595 = fs := List.take_of_length_le (by omega)
    have htake' : (fs ++ [f]).take 595 = fs ++ [f] :=
      List.take_of_length_le (by simp only [List.length_append, List.length_singleton]; omega)
    simp only [ffmpegAverage, htake, htake', Average.ofAll, Average.ofList_concat, if_true]
    rfl
  · rw [ffmpegAverage, List.take_append_of_le_length (by omega)]
    rfl

/-- The fields of the counters after a packet. -/
theorem ffmpeg_count (c : Ffmpeg.LatencySender.Counters) (nalType : UInt8) (diff : Int) :
    c.count nalType diff =
      { frames := c.frames + 1
        intras := if nalType = 19 then c.intras + 1 else c.intras
        inters := if nalType = 1 then c.inters + 1 else c.inters
        frameTotal :=
          if c.frames + 1 < 596 then Ffmpeg.LatencySender.addMs c.frameTotal diff
          else c.frameTotal
        intraTotal :=
          if nalType = 19 then Ffmpeg.LatencySender.addMs c.intraTotal diff else c.intraTotal
        interTotal :=
          if nalType = 1 then Ffmpeg.LatencySender.addMs c.interTotal diff else c.interTotal } := by
  have hne : nalType = 19 → nalType ≠ 1 := by
    rintro rfl
    decide
  simp only [Ffmpeg.LatencySender.Counters.count]
  by_cases h19 : nalType = 19
  · simp only [if_pos h19, if_neg (hne h19)]
    split <;> rfl
  · by_cases h1 : nalType = 1
    · simp only [if_neg h19, if_pos h1]
      split <;> rfl
    · simp only [if_neg h19, if_neg h1]
      split <;> rfl

/-- The totals and counters of FFmpeg. -/
theorem ffmpeg_stored (fs : List Received) :
    (Average.ofList Received.intra Received.ms fs).Stored (ffmpegCounters fs).intraTotal
      (ffmpegCounters fs).intras ∧
    (Average.ofList Received.inter Received.ms fs).Stored (ffmpegCounters fs).interTotal
      (ffmpegCounters fs).inters ∧
    (ffmpegAverage fs).Stored (ffmpegCounters fs).frameTotal (ffmpegCounters fs).frames := by
  induction fs using List.reverseRecOn with
  | nil => exact ⟨⟨rfl, rfl⟩, ⟨rfl, rfl⟩, ⟨rfl, rfl⟩⟩
  | append_singleton fs f ih =>
    obtain ⟨hintra, hinter, hall⟩ := ih
    have hlen : (ffmpegCounters fs).frames = fs.length := hall.count
    have htotal := ffmpegAverage_concat fs f
    -- the overall total, whatever the kind of the packet
    have havg : (ffmpegAverage (fs ++ [f])).Stored
        (if fs.length + 1 < 596 then ((ffmpegCounters fs).frameTotal + f.ms) % 2 ^ 64
          else (ffmpegCounters fs).frameTotal) ((ffmpegCounters fs).frames + 1) := by
      refine ⟨?_, by simp [ffmpegAverage, hlen]⟩
      split_ifs at htotal ⊢
      · rw [htotal]
        exact (hall.add f.ms).total
      · rw [htotal]
        exact hall.total
    simp only [ffmpegCounters_concat, ffmpeg_count, Average.ofList_concat, Received.intra,
      Received.inter, addMs_natCast, decide_eq_true_eq, hlen] at havg ⊢
    refine ⟨?_, ?_, havg⟩
    · split_ifs
      · exact hintra.add f.ms
      · exact hintra
    · split_ifs
      · exact hinter.add f.ms
      · exact hinter

/-- What FFmpeg counts differently evens out: there is some intra or inter packet, and the
other packets add up to as much as that many intra and inter packets on average and the
packet that ends the loop, if there is one. -/
def FfmpegEven (fs : List Received) : Prop :=
  fs = [] ∨ (∃ f ∈ fs, f.vcl) ∧
    (Average.ofList (fun f => !f.vcl) Received.ms fs).total * (vclAverage fs).count =
      (vclAverage fs).total * (Average.ofList (fun f => !f.vcl) Received.ms fs).count +
        (Average.ofAll Received.ms (fs.drop 595)).total * (vclAverage fs).count

theorem ffmpeg_average_iff (fs : List Received) :
    (ffmpegAverage fs).value = (vclAverage fs).value ↔ FfmpegEven fs := by
  have hzero : (vclAverage fs).count = 0 ↔ ∀ f ∈ fs, ¬ f.vcl := Average.ofList_count_eq_zero_iff
  have hsome : (∃ f ∈ fs, f.vcl) ↔ (vclAverage fs).count ≠ 0 := by
    rw [Ne, hzero]
    push Not
    rfl
  have hle : (vclAverage fs).count ≤ fs.length := Average.ofList_count_le
  have hsplit : (Average.ofAll Received.ms (fs.take 595)).combine
      (.ofAll Received.ms (fs.drop 595)) = .ofAll Received.ms fs := by
    rw [Average.ofAll, Average.ofAll, ← Average.ofList_append, List.take_append_drop]
    rfl
  have hparts : (vclAverage fs).combine (.ofList (fun f => !f.vcl) Received.ms fs) =
      .ofAll Received.ms fs := Average.ofList_combine_not Received.vcl Received.ms fs
  have hwhole := congrArg Average.total (hparts.trans hsplit.symm)
  have hlen := congrArg Average.count hparts
  simp only [Average.combine] at hwhole hlen
  rw [Average.ofAll_count] at hlen
  rw [FfmpegEven, hsome, ← List.length_eq_zero_iff]
  by_cases hne : (vclAverage fs).count = 0
  · have hnone := Average.value_eq_none_iff.mpr hne
    rw [hnone, Average.value_eq_none_iff]
    simp only [ffmpegAverage, hne]
    omega
  · rw [Average.value_eq_value_iff (by simp only [ffmpegAverage]; omega) hne]
    simp only [ffmpegAverage, ← hlen]
    -- both sides of `hwhole` as often as there are intra and inter packets
    have hscaled := congrArg (· * (vclAverage fs).count) hwhole
    simp only [Nat.add_mul] at hscaled
    rw [Nat.mul_add]
    constructor
    · intro h
      exact .inr ⟨hne, by omega⟩
    · rintro (hnil | ⟨-, h⟩) <;> omega

/-! ### Both -/

theorem ms_le {f : Received} (h : f.diff < 2 ^ 64) : f.ms ≤ 2 ^ 64 / 1000 :=
  Nat.div_le_div_right h.le

/-- Until the report is printed nothing wraps around. -/
theorem ofList_lt {fs : List Received} (hlen : fs.length ≤ 601)
    (hdiff : ∀ f ∈ fs, f.diff < 2 ^ 64) (p : Received → Bool) :
    (Average.ofList p Received.ms fs).total < 2 ^ 64 := by
  have hle : (Average.ofList p Received.ms fs).total ≤ fs.length * (2 ^ 64 / 1000) :=
    Average.ofList_total_le fun f hf => ms_le (hdiff f hf)
  have hmul := Nat.mul_le_mul_right (2 ^ 64 / 1000) hlen
  omega

/-! ## The comparison -/

/-- For every sequence of frames up to the report of each program: the report of uvgRTP is
consistent, and those of Live555 and FFmpeg are if and only if what they count differently
evens out. -/
theorem latencyReports_consistent {format : Uvgrtp.LatencySender.Format} {calls : List Call}
    {s : Uvgrtp.LatencySender.State} {fs ps : List Received}
    (hrun : Run (hookCall format) { queue := [] } calls s)
    (hexact : (countedCalls format calls).total < 2 ^ 64)
    (hfs : fs.length ≤ 601) (hps : ps.length ≤ 596)
    (hdiff : ∀ f ∈ fs ++ ps, f.diff < 2 ^ 64) :
    (uvgrtpReport s).Consistent ∧
    ((live555Counters fs).report.Consistent ↔ Live555Even fs) ∧
    ((ffmpegCounters ps).report.Consistent ↔ FfmpegEven ps) := by
  have hdiffs : ∀ f ∈ fs, f.diff < 2 ^ 64 := fun f hf => hdiff f (List.mem_append_left _ hf)
  have hdiffps : ∀ f ∈ ps, f.diff < 2 ^ 64 := fun f hf => hdiff f (List.mem_append_right _ hf)
  refine ⟨uvgrtpReport_consistent hrun hexact, ?_, ?_⟩
  · obtain ⟨hintra, hinter, hall⟩ := live555_stored fs
    rw [Report.consistent_iff, ← live555_average_iff]
    simp only [Live555.LatencySender.Counters.report, hall.eq_of_lt (ofList_lt hfs hdiffs _),
      hintra.eq_of_lt (ofList_lt hfs hdiffs _), hinter.eq_of_lt (ofList_lt hfs hdiffs _),
      combine_intra_inter]
  · obtain ⟨hintra, hinter, hall⟩ := ffmpeg_stored ps
    have hlen : ps.length ≤ 601 := by omega
    have htake : (ps.take 595).length ≤ 601 := by
      rw [List.length_take]
      omega
    have hlt : (ffmpegAverage ps).total < 2 ^ 64 :=
      ofList_lt htake (fun f hf => hdiffps f (List.mem_of_mem_take hf)) _
    rw [Report.consistent_iff, ← ffmpeg_average_iff]
    simp only [Ffmpeg.LatencySender.Counters.report, hall.eq_of_lt hlt,
      hintra.eq_of_lt (ofList_lt hlen hdiffps _), hinter.eq_of_lt (ofList_lt hlen hdiffps _),
      combine_intra_inter]

/-- An intra and an inter frame in each program. -/
theorem latencyReports_consistent_two :
    ∃ s, Run (hookCall .hevc) { queue := [] }
        [⟨0, ⟨[0, 0, 0, 1, 38]⟩, 40000000, 0, 0⟩,
          ⟨33000000, ⟨[0, 0, 0, 1, 2]⟩, 50000000, 0, 0⟩] s ∧
      (uvgrtpReport s).Consistent ∧
      ((live555Counters [⟨19, 40000⟩, ⟨1, 17000⟩]).report.Consistent ↔
        Live555Even [⟨19, 40000⟩, ⟨1, 17000⟩]) ∧
      ((ffmpegCounters [⟨19, 40000⟩, ⟨1, 17000⟩]).report.Consistent ↔
        FfmpegEven [⟨19, 40000⟩, ⟨1, 17000⟩]) := by
  have hrun : Run (hookCall .hevc) { queue := [] }
      [⟨0, ⟨[0, 0, 0, 1, 38]⟩, 40000000, 0, 0⟩,
        ⟨33000000, ⟨[0, 0, 0, 1, 2]⟩, 50000000, 0, 0⟩] _ :=
    run_get rfl
  exact ⟨_, hrun, latencyReports_consistent hrun (by decide) (by decide) (by decide) (by simp)⟩

/-- A parameter set and an inter frame that comes back after 40 ms: Live555 and FFmpeg report
20 ms overall, and FFmpeg less than 40 ms for 596 inter packets that all take 40 ms. -/
theorem latencyReports_not_consistent :
    ¬ (live555Counters [⟨32, 0⟩, ⟨1, 40000⟩]).report.Consistent ∧
    ¬ (ffmpegCounters [⟨32, 0⟩, ⟨1, 40000⟩]).report.Consistent ∧
    ¬ (ffmpegCounters (List.replicate 596 ⟨1, 40000⟩)).report.Consistent := by
  refine ⟨fun h => ?_, fun h => ?_, fun h => ?_⟩
  · have heq := (Average.value_eq_value_iff (by decide) (by decide)).mp h.avg_eq
    exact absurd heq (by decide)
  · have heq := (Average.value_eq_value_iff (by decide) (by decide)).mp h.avg_eq
    exact absurd heq (by decide)
  · have heq := (Average.value_eq_value_iff (by decide +kernel) (by decide +kernel)).mp h.avg_eq
    exact absurd heq (by decide +kernel)

end RtpBenchmarks.Latency
