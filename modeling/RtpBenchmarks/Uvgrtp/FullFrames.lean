import RtpBenchmarks.Foundation.Runs
import RtpBenchmarks.Uvgrtp.VpccLatencySender
import RtpBenchmarks.Uvgrtp.VpccResults

set_option autoImplicit false

/-!
# Full frames of the V-PCC latency sender (`uvgrtp/vpcc_latency_sender.cc`)

When as many units have come back on each stream as were sent, `sender` goes through the full
frames.  There are taken to be as many as the atlas stream has logged times; a full frame `i`
has the unit `i` of the atlas and the occupancy stream, and four units from `4 * i` on of each
of the others.  The lengths of the four logs are not compared with each other.

The times of a full frame are the earliest send time and the latest reception time of its
first unit on each stream.  The last three units of the geometry and the attribute stream
are not looked at.
-/

namespace RtpBenchmarks.Uvgrtp.VpccLatencySender

open RtpBenchmarks.Foundation
open RtpBenchmarks.Uvgrtp.LatencySender (naluT getCurrentTime getCurrentTime_mono)
open RtpBenchmarks.Uvgrtp.VpccResults
open RtpBenchmarks.V3c (NalInfo RtpFrame V3cUnitInfo V3cUnitType)

/-! ## The code -/

/-- `full_frames`, an `int`. -/
def fullFrameCount (send : V3cUnitType → List Int) : Int :=
  ((send .ad).length : Int).bmod (2 ^ 32)

/-- `i * 4` of an `int`, as an index.  Where it overflows the index is negative, and no vector
has it. -/
def timesFour (i : Nat) : Except MemFault Nat :=
  if 4 * i < 2 ^ 31 then .ok (4 * i) else .error .outOfRange

/-- The times that are used for a full frame. -/
structure FullFrame where
  sendTime : Int
  recvTime : Int
  deriving DecidableEq, Repr

/-- The body of the loop over the full frames. -/
def fullFrame (send recv : V3cUnitType → List Int) (i : Nat) : Except MemFault FullFrame := do
  let j ← timesFour i
  let sendTime := findEarliestTimePoint (← elementAt (send .ad) i) (← elementAt (send .ovd) i)
    (← elementAt (send .gvd) j) (← elementAt (send .avd) j)
  let recvTime := findLatestTimePoint (← elementAt (recv .ad) i) (← elementAt (recv .ovd) i)
    (← elementAt (recv .gvd) j) (← elementAt (recv .avd) j)
  return { sendTime, recvTime }

/-- What is written: the number of full frames and the total of their latencies, which is
divided by the number. -/
structure Result where
  fullFrames : Int
  totalTime : Int
  deriving DecidableEq, Repr

/-- The end of `sender`; the total is exact, where the code adds up a `float`. -/
def writeResult (send recv : V3cUnitType → List Int) : Except MemFault Result := do
  if frameLoss send recv then
    return { fullFrames := 0, totalTime := 0 }
  let frames ← (List.range (fullFrameCount send).toNat).mapM (fullFrame send recv)
  return {
    fullFrames := fullFrameCount send
    totalTime := (frames.map fun f => f.recvTime - f.sendTime).sum }

/-! ## What the sender logs -/

/-- The type of a NAL unit of the file. -/
def nalType (bytes : List UInt8) (n : NalInfo) : UInt8 :=
  naluT (bytes.getD n.location 0)

/-- The number of NAL units that a frame of the stream has. -/
def frameUnits (fmt : V3cUnitType) : Nat :=
  if fmt = .gvd ∨ fmt = .avd then 4 else 1

/-- The number of NAL units of a stream that are no parameter sets to the sender. -/
def loggedCount (fmt : V3cUnitType) (bytes : List UInt8) (units : List V3cUnitInfo) : Nat :=
  (units.flatMap (·.nalInfos)).countP fun n => !isParamSet fmt (nalType bytes n)

section Sender

variable {fmt : V3cUnitType} {bytes : List UInt8} {clock : Nat → Int}

theorem nalType_eq {n : NalInfo} {b : UInt8} (h : loadByte bytes n.location = .ok b) :
    nalType bytes n = naluT b := by
  rw [nalType, List.getD_eq_getElem?_getD, loadByte_eq_ok_iff.mp h, Option.getD_some]

theorem slice_eq {n : NalInfo} {frame : List UInt8}
    (h : loadBytes bytes n.location n.size = .ok frame) : slice bytes n = frame := by
  unfold loadBytes at h
  split at h
  · exact Except.ok.inj h
  · cases h

/-- What one iteration of `sender_func` pushes and logs. -/
theorem sendNal_eq_ok {s s' : SenderState} {n : NalInfo}
    (h : sendNal fmt bytes clock s n = .ok s') :
    s'.pushed = s.pushed ++ [slice bytes n] ∧
      s'.sendTimes = s.sendTimes ++
        if isParamSet fmt (nalType bytes n) then []
        else [getCurrentTime (clock s.pushed.length)] := by
  unfold sendNal at h
  obtain ⟨b, hb, h⟩ := bind_eq_ok_iff.mp h
  obtain ⟨frame, hframe, h⟩ := bind_eq_ok_iff.mp h
  rw [← nalType_eq hb, ← slice_eq hframe] at h
  dsimp only at h
  split at h
  · next hparam =>
    cases h
    simp [hparam]
  · next hparam =>
    have hvcl : isParamSet fmt (nalType bytes n) = false := by simpa using hparam
    split at h
    · cases h
      simp [hvcl]
    · cases h
      simp [hvcl]

/-- A run of `sender_func` logs a time for each NAL unit that is no parameter set. -/
theorem length_sendTimes {units : List V3cUnitInfo} {s : SenderState}
    (h : senderFunc fmt bytes clock units = .ok s) :
    s.sendTimes.length = loggedCount fmt bytes units := by
  rw [senderFunc_eq] at h
  unfold loggedCount
  generalize units.flatMap (·.nalInfos) = ns at h ⊢
  induction ns using List.reverseRecOn generalizing s with
  | nil =>
    cases h
    rfl
  | append_singleton ns n ih =>
    rw [List.foldlM_append] at h
    obtain ⟨mid, hmid, h⟩ := bind_eq_ok_iff.mp h
    have hstep : sendNal fmt bytes clock mid n = .ok s := by
      simpa using h
    rw [(sendNal_eq_ok hstep).2, List.length_append, ih hmid, List.countP_append,
      List.countP_singleton]
    cases isParamSet fmt (nalType bytes n) <;> rfl

end Sender

/-! ## Every access in range -/

/-- The other streams have the units of the full frames that are counted on the atlas stream,
as far as they are looked at. -/
def Covered (counts : V3cUnitType → Nat) : Prop :=
  let n := (counts .ad : Int).bmod (2 ^ 32)
  n ≤ 0 ∨ n ≤ counts .ovd ∧ 4 * (n - 1) < counts .gvd ∧ 4 * (n - 1) < counts .avd ∧
    4 * (n - 1) < 2 ^ 31

instance (counts : V3cUnitType → Nat) : Decidable (Covered counts) :=
  inferInstanceAs (Decidable (_ ∨ _))

/-- A loop over a list comes to its end if and only if no iteration faults. -/
theorem mapM_eq_ok_iff {ε α β : Type} {f : α → Except ε β} {xs : List α} :
    (∃ ys, xs.mapM f = .ok ys) ↔ ∀ x ∈ xs, ∃ y, f x = .ok y := by
  induction xs with
  | nil => exact iff_of_true ⟨[], rfl⟩ (by simp)
  | cons x xs ih =>
    rw [List.mapM_cons, List.forall_mem_cons, ← ih]
    constructor
    · rintro ⟨ys, h⟩
      obtain ⟨y, hy, h⟩ := bind_eq_ok_iff.mp h
      obtain ⟨ys, hys, -⟩ := bind_eq_ok_iff.mp h
      exact ⟨⟨y, hy⟩, ys, hys⟩
    · rintro ⟨⟨y, hy⟩, ys, hys⟩
      exact ⟨y :: ys, by rw [hy, ok_bind, hys]; rfl⟩

theorem elementAt_eq_ok_getD {α : Type} {xs : List α} {i : Nat} {x d : α} :
    elementAt xs i = .ok x ↔ i < xs.length ∧ xs.getD i d = x := by
  rw [elementAt_eq_ok_iff, List.getElem?_eq_some_iff, List.getD_eq_getElem?_getD]
  constructor
  · rintro ⟨h, rfl⟩
    simp [h]
  · rintro ⟨h, rfl⟩
    simp [h]

section Loop

variable {send recv : V3cUnitType → List Int}

/-- The check says that the two logs of each stream have one length. -/
theorem frameLoss_eq_false :
    frameLoss send recv = false ↔
      ∀ t, t.hasStream = true → (send t).length = (recv t).length := by
  simp only [frameLoss, decide_eq_false_iff_not, not_or, ne_eq, not_not]
  constructor
  · rintro ⟨had, hovd, hgvd, havd⟩ t ht
    cases t with
    | ad => exact had
    | ovd => exact hovd
    | gvd => exact hgvd
    | avd => exact havd
    | vps | pvd | cad => cases ht
  · exact fun h => ⟨h .ad rfl, h .ovd rfl, h .gvd rfl, h .avd rfl⟩

/-- The logged time of the first unit of a full frame. -/
def firstTime (log : V3cUnitType → List Int) (i : Nat) (t : V3cUnitType) : Int :=
  (log t).getD (frameUnits t * i) 0

/-- The first unit of a full frame on each stream has its times in the logs. -/
def HasFirst (send recv : V3cUnitType → List Int) (i : Nat) : Prop :=
  ∀ t, t.hasStream = true →
    frameUnits t * i < (send t).length ∧ frameUnits t * i < (recv t).length

/-- The times of a full frame are those of its first unit on each stream. -/
theorem fullFrame_eq_ok_iff {i : Nat} {f : FullFrame} :
    fullFrame send recv i = .ok f ↔ 4 * i < 2 ^ 31 ∧ HasFirst send recv i ∧
      f = { sendTime := earliest (firstTime send i), recvTime := latest (firstTime recv i) } := by
  unfold fullFrame timesFour
  simp only [bind_eq_ok_iff, @elementAt_eq_ok_getD _ _ _ _ (0 : Int)]
  constructor
  · rintro ⟨j, hj, _, ⟨hs0, rfl⟩, _, ⟨hs1, rfl⟩, _, ⟨hs2, rfl⟩, _, ⟨hs3, rfl⟩, _, ⟨hr0, rfl⟩,
      _, ⟨hr1, rfl⟩, _, ⟨hr2, rfl⟩, _, ⟨hr3, rfl⟩, hf⟩
    split at hj
    · next hlt =>
      cases hj
      refine ⟨hlt, ?_, ?_⟩
      · intro t ht
        cases t with
        | ad => simpa [frameUnits] using ⟨hs0, hr0⟩
        | ovd => simpa [frameUnits] using ⟨hs1, hr1⟩
        | gvd => exact ⟨hs2, hr2⟩
        | avd => exact ⟨hs3, hr3⟩
        | vps | pvd | cad => cases ht
      · cases hf
        simp [earliest, latest, firstTime, frameUnits]
    · cases hj
  · rintro ⟨hlt, hin, rfl⟩
    have had := hin .ad rfl
    have hovd := hin .ovd rfl
    have hgvd := hin .gvd rfl
    have havd := hin .avd rfl
    simp only [frameUnits, reduceCtorEq, or_self, or_false, false_or, if_true, if_false,
      Nat.one_mul] at had hovd hgvd havd
    refine ⟨4 * i, if_pos hlt, _, ⟨had.1, rfl⟩, _, ⟨hovd.1, rfl⟩, _, ⟨hgvd.1, rfl⟩,
      _, ⟨havd.1, rfl⟩, _, ⟨had.2, rfl⟩, _, ⟨hovd.2, rfl⟩, _, ⟨hgvd.2, rfl⟩, _, ⟨havd.2, rfl⟩, ?_⟩
    simp [earliest, latest, firstTime, frameUnits]
    rfl

theorem fullFrameCount_le (send : V3cUnitType → List Int) :
    fullFrameCount send ≤ (send .ad).length := by
  unfold fullFrameCount
  generalize (send .ad).length = k
  rw [Int.bmod_def]
  omega

/-- With as many times received as sent, the accesses are in range if and only if the streams
cover the full frames. -/
theorem forall_hasFirst_iff (h : frameLoss send recv = false) :
    (∀ i < (fullFrameCount send).toNat, 4 * i < 2 ^ 31 ∧ HasFirst send recv i) ↔
      Covered fun t => (send t).length := by
  have hle := fullFrameCount_le send
  have hlengths := frameLoss_eq_false.mp h
  have hfirst : ∀ i, HasFirst send recv i ↔ i < (send .ad).length ∧ i < (send .ovd).length ∧
      4 * i < (send .gvd).length ∧ 4 * i < (send .avd).length := by
    intro i
    constructor
    · intro hin
      have had := hin .ad rfl
      have hovd := hin .ovd rfl
      have hgvd := hin .gvd rfl
      have havd := hin .avd rfl
      simp only [frameUnits, reduceCtorEq, or_self, or_false, false_or, if_true, if_false,
        Nat.one_mul] at had hovd hgvd havd
      exact ⟨had.1, hovd.1, hgvd.1, havd.1⟩
    · rintro ⟨had, hovd, hgvd, havd⟩ t ht
      rw [← hlengths t ht, and_self]
      cases t with
      | ad => simpa [frameUnits] using had
      | ovd => simpa [frameUnits] using hovd
      | gvd => exact hgvd
      | avd => exact havd
      | vps | pvd | cad => cases ht
  simp only [hfirst, Covered]
  change _ ↔ fullFrameCount send ≤ 0 ∨ fullFrameCount send ≤ _ ∧ 4 * (fullFrameCount send - 1) < _ ∧
    4 * (fullFrameCount send - 1) < _ ∧ 4 * (fullFrameCount send - 1) < 2 ^ 31
  generalize fullFrameCount send = n at hle
  constructor
  · intro hall
    rcases Int.lt_or_le 0 n with hn | hn
    · -- the last frame is the furthest into the logs
      have hlast := hall (n - 1).toNat (by omega)
      omega
    · exact .inl hn
  · rintro hcovered i hi
    omega

theorem writeResult_iff (h : frameLoss send recv = false) :
    (∃ r, writeResult send recv = .ok r) ↔ Covered fun t => (send t).length := by
  have hloop : (∃ r, writeResult send recv = .ok r) ↔
      ∃ frames, (List.range (fullFrameCount send).toNat).mapM (fullFrame send recv) =
        .ok frames := by
    simp only [writeResult, h, Bool.false_eq_true, if_false, bind_eq_ok_iff]
    exact ⟨fun ⟨_, frames, hframes, _⟩ => ⟨frames, hframes⟩,
      fun ⟨frames, hframes⟩ => ⟨_, frames, hframes, rfl⟩⟩
  rw [hloop, mapM_eq_ok_iff, ← forall_hasFirst_iff h]
  simp only [List.mem_range, fullFrame_eq_ok_iff]
  exact forall₂_congr fun i _ => ⟨fun ⟨_, hlt, hin, _⟩ => ⟨hlt, hin⟩,
    fun ⟨hlt, hin⟩ => ⟨_, hlt, hin, rfl⟩⟩

end Loop

/-- In every run that passes the frame-loss check, the result is written if and only if the
other streams cover the full frames that are counted on the atlas stream. -/
theorem vpccLatencySender_fullFrames {bytes : List UInt8}
    {units : V3cUnitType → List V3cUnitInfo} {clock : V3cUnitType → Nat → Int}
    {sent : V3cUnitType → SenderState} {recv : V3cUnitType → List Int}
    (hrun : ∀ t, t.hasStream = true → senderFunc t bytes (clock t) (units t) = .ok (sent t))
    (hloss : frameLoss (fun t => (sent t).sendTimes) recv = false) :
    (∃ r, writeResult (fun t => (sent t).sendTimes) recv = .ok r) ↔
      Covered fun t => loggedCount t bytes (units t) := by
  rw [writeResult_iff hloss]
  have hcount := fun t ht => length_sendTimes (hrun t ht)
  simp only [Covered, hcount .ad rfl, hcount .ovd rfl, hcount .gvd rfl, hcount .avd rfl]

/-- The four streams of one frame. -/
theorem vpccLatencySender_fullFrames_one :
    ∃ r, writeResult (fun t => List.replicate (frameUnits t) 0)
      (fun t => List.replicate (frameUnits t) 7) = .ok r := by
  have hcovered := @vpccLatencySender_fullFrames [0, 1]
    (fun t => [{ header := default, nalInfos := List.replicate (frameUnits t) { size := 2 } }])
    (fun _ _ => 0)
    (fun t =>
      { currentFrame := 1, sendTimes := List.replicate (frameUnits t) 0
        pushed := List.replicate (frameUnits t) [0, 1] })
    (fun t => List.replicate (frameUnits t) 7)
  refine (hcovered ?_ (by decide)).mpr (by decide)
  intro t ht
  cases t with
  | ad | ovd | gvd | avd => rfl
  | vps | pvd | cad => cases ht

/-- A file with a single NAL unit, on the atlas stream, that comes back: the loop looks for the
unit of the occupancy stream. -/
theorem vpccLatencySender_fullFrames_outOfRange :
    ∃ (sent : V3cUnitType → SenderState) (recv : V3cUnitType → List Int),
      (∀ t ∈ [V3cUnitType.ad, .ovd, .gvd, .avd],
        senderFunc t [0, 1] (fun _ => 0)
          (if t = .ad then [{ header := default, nalInfos := [{ size := 2 }] }] else []) =
          .ok (sent t) ∧
        receive t (if t = .ad then [({ payload := [0, 1] }, 7000)] else []) = .ok (recv t)) ∧
      frameLoss (fun t => (sent t).sendTimes) recv = false ∧
      writeResult (fun t => (sent t).sendTimes) recv = .error .outOfRange :=
  ⟨fun t => if t = .ad then { currentFrame := 1, sendTimes := [0], pushed := [[0, 1]] } else {},
    fun t => if t = .ad then [7] else [], by decide, by decide, by decide⟩

/-! ## The span of a full frame -/

/-- When a NAL unit was sent and when it came back. -/
structure NalTimes where
  send : Int
  recv : Int
  deriving DecidableEq, Repr

/-- The NAL units of a stream that are no parameter sets, when nothing is lost and the order is
kept: the frames arrive as they were pushed. -/
def logged (fmt : V3cUnitType) (clock : Nat → Int) (arrivals : List (RtpFrame × Int)) :
    List NalTimes :=
  (arrivals.zipIdx.filter fun a => !isParamSet fmt (frameType a.1.1.payload)).map fun a =>
    { send := getCurrentTime (clock a.2), recv := getCurrentTime a.1.2 }

/-- A run of the program in which every frame comes back, in the order of the sender. -/
structure InOrderRun (bytes : List UInt8) (units : V3cUnitType → List V3cUnitInfo)
    (clock : V3cUnitType → Nat → Int) (arrivals : V3cUnitType → List (RtpFrame × Int))
    (sent : V3cUnitType → SenderState) (recv : V3cUnitType → List Int) : Prop where
  sender : ∀ t, t.hasStream = true → senderFunc t bytes (clock t) (units t) = .ok (sent t)
  inOrder : ∀ t, t.hasStream = true → (arrivals t).map (·.1.payload) = (sent t).pushed
  receiver : ∀ t, t.hasStream = true → receive t (arrivals t) = .ok (recv t)

theorem nalType_of_ne_nil {bytes : List UInt8} {n : NalInfo} (h : slice bytes n ≠ []) :
    nalType bytes n = frameType (slice bytes n) := by
  have hdropNe : bytes.drop n.location ≠ [] := by
    intro hnil
    exact h (by rw [slice, hnil, List.take_nil])
  have hsizeNe : n.size ≠ 0 := by
    intro hzero
    exact h (by rw [slice, hzero, List.take_zero])
  obtain ⟨b, rest, hdrop⟩ := List.exists_cons_of_ne_nil hdropNe
  obtain ⟨k, hk⟩ := Nat.exists_eq_succ_of_ne_zero hsizeNe
  have hget : bytes[n.location]? = some b := by
    rw [← List.head?_drop, hdrop, List.head?_cons]
  rw [nalType, frameType, slice, hdrop, hk, List.take_succ_cons, List.headD_cons,
    List.getD_eq_getElem?_getD, hget, Option.getD_some]

/-- The send times that are logged, by the frames pushed. -/
theorem sendTimes_eq {fmt : V3cUnitType} {bytes : List UInt8} {clock : Nat → Int}
    {units : List V3cUnitInfo} {s : SenderState}
    (h : senderFunc fmt bytes clock units = .ok s) (hne : ∀ f ∈ s.pushed, f ≠ []) :
    s.sendTimes = (s.pushed.zipIdx.filter fun f => !isParamSet fmt (frameType f.1)).map
      fun f => getCurrentTime (clock f.2) := by
  rw [senderFunc_eq] at h
  generalize units.flatMap (·.nalInfos) = ns at h
  induction ns using List.reverseRecOn generalizing s with
  | nil =>
    cases h
    rfl
  | append_singleton ns n ih =>
    rw [List.foldlM_append] at h
    obtain ⟨mid, hmid, h⟩ := bind_eq_ok_iff.mp h
    have hstep : sendNal fmt bytes clock mid n = .ok s := by simpa using h
    obtain ⟨hpushed, htimes⟩ := sendNal_eq_ok hstep
    rw [hpushed] at hne ⊢
    have hslice : slice bytes n ≠ [] := hne _ (by simp)
    rw [htimes, ih (fun f hf => hne f (List.mem_append_left _ hf)) hmid, List.zipIdx_append,
      List.filter_append, List.map_append, nalType_of_ne_nil hslice, Nat.zero_add,
      List.zipIdx_singleton, List.filter_singleton]
    cases isParamSet fmt (frameType (slice bytes n)) <;> rfl

/-- The reception times that are logged, by the frames that arrive. -/
theorem receive_eq {fmt : V3cUnitType} (hfmt : fmt.hasStream = true)
    {arrivals : List (RtpFrame × Int)} {recv : List Int} (h : receive fmt arrivals = .ok recv) :
    (∀ a ∈ arrivals, a.1.payload ≠ []) ∧
      recv = (arrivals.filter fun a => hookLogs fmt (frameType a.1.payload)).map
        fun a => getCurrentTime a.2 := by
  unfold receive at h
  rw [hookOf_eq hfmt] at h
  induction arrivals using List.reverseRecOn generalizing recv with
  | nil =>
    cases h
    exact ⟨by simp, rfl⟩
  | append_singleton arrivals a ih =>
    rw [List.foldlM_append] at h
    obtain ⟨mid, hmid, h⟩ := bind_eq_ok_iff.mp h
    obtain ⟨hne, hmidEq⟩ := ih hmid
    have hstep : hook (hookLogs fmt) mid a.1 a.2 = .ok recv := by simpa using h
    unfold hook at hstep
    obtain ⟨b, hb, hstep⟩ := bind_eq_ok_iff.mp hstep
    cases hpayload : a.1.payload with
    | nil =>
      rw [hpayload] at hb
      cases hb
    | cons c rest =>
      rw [hpayload] at hb
      cases hb
      refine ⟨?_, ?_⟩
      · simp only [List.forall_mem_append, List.forall_mem_singleton, hpayload]
        exact ⟨hne, List.cons_ne_nil _ _⟩
      · cases hstep
        rw [List.filter_append, List.map_append, ← hmidEq, List.filter_singleton, hpayload]
        change (if hookLogs fmt (naluT b) then _ else _) = _ ++ List.map _
          (bif hookLogs fmt (naluT b) then _ else _)
        cases hookLogs fmt (naluT b) <;> simp

/-- The iteration `i` of the loop over the full frames is reached and uses the times `f`. -/
def Used (send recv : V3cUnitType → List Int) (i : Nat) (f : FullFrame) : Prop :=
  i < fullFrameCount send ∧ (∀ j < i, ∃ g, fullFrame send recv j = .ok g) ∧
    fullFrame send recv i = .ok f

/-- Each stream has the units of as many frames as the atlas stream. -/
def WholeFrames (log : V3cUnitType → List NalTimes) : Prop :=
  ∀ t, t.hasStream = true → (log t).length = frameUnits t * (log .ad).length

/-- The units of full frame `i` on a stream. -/
def unitsOf (log : V3cUnitType → List NalTimes) (i : Nat) (t : V3cUnitType) : List NalTimes :=
  ((log t).drop (frameUnits t * i)).take (frameUnits t)

/-- No unit of the full frame is sent before the one time, and none comes back after the
other. -/
def Spans (log : V3cUnitType → List NalTimes) (i : Nat) (f : FullFrame) : Prop :=
  ∀ t, t.hasStream = true → ∀ u ∈ unitsOf log i t, f.sendTime ≤ u.send ∧ u.recv ≤ f.recvTime

/-- The frames that the loop comes to, as long as `i * 4` does not overflow. -/
def InLoop (log : V3cUnitType → List NalTimes) (i : Nat) : Prop :=
  i < ((log .ad).length : Int).bmod (2 ^ 32) ∧ 4 * i < 2 ^ 31

/-- The times of the first units of a full frame. -/
def firstUnit (log : V3cUnitType → List NalTimes) (i : Nat) (t : V3cUnitType) : NalTimes :=
  (log t).getD (frameUnits t * i) { send := 0, recv := 0 }

/-- No unit behind the first of its stream is sent before all first units of the frame, and
none comes back after all of them. -/
def FirstUnitsSpan (log : V3cUnitType → List NalTimes) (i : Nat) : Prop :=
  ∀ t, t.hasStream = true → ∀ u ∈ (unitsOf log i t).tail,
    (earliest fun t => (firstUnit log i t).send) ≤ u.send ∧
      u.recv ≤ latest fun t => (firstUnit log i t).recv

/-- The last unit of the frame on each stream comes back before the last first unit does. -/
def LastUnitsInTime (log : V3cUnitType → List NalTimes) (i : Nat) : Prop :=
  ∀ t, t.hasStream = true → ∀ u ∈ (unitsOf log i t).getLast?,
    u.recv ≤ latest fun t => (firstUnit log i t).recv

section Times

variable {log : V3cUnitType → List NalTimes} {send recv : V3cUnitType → List Int} {i : Nat}

theorem frameUnits_pos (t : V3cUnitType) : 0 < frameUnits t := by
  unfold frameUnits
  split <;> decide

/-- A full frame starts with its first unit. -/
theorem unitsOf_eq_cons {t : V3cUnitType} (h : frameUnits t * i < (log t).length) :
    unitsOf log i t = firstUnit log i t :: (unitsOf log i t).tail := by
  obtain ⟨k, hk⟩ := Nat.exists_eq_succ_of_ne_zero (frameUnits_pos t).ne'
  have hget : firstUnit log i t = (log t)[frameUnits t * i] := by
    rw [firstUnit, List.getD_eq_getElem?_getD, List.getElem?_eq_getElem h, Option.getD_some]
  rw [unitsOf, List.drop_eq_getElem_cons h, ← hget, hk, List.take_succ_cons, List.tail_cons]

theorem frameUnits_mul_lt (hwhole : WholeFrames log) (hi : InLoop log i) {t : V3cUnitType}
    (ht : t.hasStream = true) : frameUnits t * i < (log t).length := by
  have hle : ((log .ad).length : Int).bmod (2 ^ 32) ≤ (log .ad).length := by
    generalize (log .ad).length = k
    rw [Int.bmod_def]
    omega
  have hlt : i < (log .ad).length := by
    have hloop := hi.1
    omega
  rw [hwhole t ht]
  exact Nat.mul_lt_mul_of_pos_left hlt (frameUnits_pos t)

/-- The logs have the times of the first units. -/
theorem firstTime_eq {g : NalTimes → Int} (hg : g { send := 0, recv := 0 } = 0)
    {times : V3cUnitType → List Int} {t : V3cUnitType} (h : times t = (log t).map g) :
    firstTime times i t = g (firstUnit log i t) := by
  simp only [firstTime, firstUnit, h, List.getD_eq_getElem?_getD, List.getElem?_map]
  cases (log t)[frameUnits t * i]? with
  | none => exact hg.symm
  | some u => rfl

theorem fullFrameCount_eq (h : send .ad = (log .ad).map (·.send)) :
    fullFrameCount send = ((log .ad).length : Int).bmod (2 ^ 32) := by
  unfold fullFrameCount
  rw [h, List.length_map]

/-- The times that the loop uses are those of the first units. -/
theorem used_iff (hwhole : WholeFrames log)
    (hsend : ∀ t, t.hasStream = true → send t = (log t).map (·.send))
    (hrecv : ∀ t, t.hasStream = true → recv t = (log t).map (·.recv)) {f : FullFrame} :
    Used send recv i f ↔ InLoop log i ∧
      f = { sendTime := earliest fun t => (firstUnit log i t).send
            recvTime := latest fun t => (firstUnit log i t).recv } := by
  have hcount := fullFrameCount_eq (hsend .ad rfl)
  have hfirst : ∀ j, InLoop log j → HasFirst send recv j := by
    intro j hj t ht
    have hlt := frameUnits_mul_lt hwhole hj ht
    rw [hsend t ht, hrecv t ht, List.length_map, List.length_map]
    exact ⟨hlt, hlt⟩
  have hearliest : earliest (firstTime send i) = earliest fun t => (firstUnit log i t).send :=
    earliest_congr fun t ht => firstTime_eq rfl (hsend t ht)
  have hlatest : latest (firstTime recv i) = latest fun t => (firstUnit log i t).recv :=
    latest_congr fun t ht => firstTime_eq rfl (hrecv t ht)
  rw [Used, fullFrame_eq_ok_iff, hearliest, hlatest, hcount]
  constructor
  · rintro ⟨hlt, -, hmul, -, hf⟩
    exact ⟨⟨hlt, hmul⟩, hf⟩
  · rintro ⟨hi, hf⟩
    refine ⟨hi.1, fun j hj => ?_, hi.2, hfirst i hi, hf⟩
    have hloop : InLoop log j :=
      ⟨lt_trans (Int.ofNat_lt.mpr hj) hi.1, (Nat.mul_le_mul_left 4 hj.le).trans_lt hi.2⟩
    exact ⟨_, fullFrame_eq_ok_iff.mpr ⟨hloop.2, hfirst j hloop, rfl⟩⟩

/-- The first units span the frame if they span the units behind them. -/
theorem spans_firstUnits_iff (hwhole : WholeFrames log) (hi : InLoop log i) :
    Spans log i
      { sendTime := earliest fun t => (firstUnit log i t).send
        recvTime := latest fun t => (firstUnit log i t).recv } ↔ FirstUnitsSpan log i := by
  refine forall₂_congr fun t ht => ?_
  conv_lhs => rw [unitsOf_eq_cons (frameUnits_mul_lt hwhole hi ht)]
  rw [List.forall_mem_cons]
  refine and_iff_right ⟨?_, ?_⟩
  · exact earliest_le (fun t => (firstUnit log i t).send) ht
  · exact le_latest (fun t => (firstUnit log i t).recv) ht

/-- When a stream's times do not decrease it is enough that its last unit is in time. -/
theorem firstUnitsSpan_iff (hwhole : WholeFrames log) (hi : InLoop log i)
    (hsorted : ∀ t, t.hasStream = true →
      (log t).Pairwise fun a b => a.send ≤ b.send ∧ a.recv ≤ b.recv) :
    FirstUnitsSpan log i ↔ LastUnitsInTime log i := by
  refine forall₂_congr fun t ht => ?_
  have hcons := unitsOf_eq_cons (frameUnits_mul_lt hwhole hi ht)
  have hpair : (firstUnit log i t :: (unitsOf log i t).tail).Pairwise fun a b =>
      a.send ≤ b.send ∧ a.recv ≤ b.recv := by
    rw [← hcons]
    exact (hsorted t ht).sublist ((List.take_sublist _ _).trans (List.drop_sublist _ _))
  have hsend := earliest_le (fun t => (firstUnit log i t).send) ht
  have hrecv := le_latest (fun t => (firstUnit log i t).recv) ht
  conv_rhs => rw [hcons]
  generalize (unitsOf log i t).tail = rest at hpair ⊢
  obtain ⟨hhead, hrest⟩ := List.pairwise_cons.mp hpair
  obtain rfl | ⟨init, z, rfl⟩ := List.eq_nil_or_concat rest
  · simpa using hrecv
  · rw [List.concat_eq_append] at *
    have hlast : (firstUnit log i t :: (init ++ [z])).getLast? = some z := by
      rw [← List.cons_append, List.getLast?_concat]
    rw [hlast]
    constructor
    · intro hspan u hu
      obtain rfl := Option.some.inj hu
      exact (hspan z (by simp)).2
    · intro hlastIn u hu
      have hz := hlastIn z rfl
      refine ⟨hsend.trans (hhead u hu).1, ?_⟩
      rcases List.mem_append.mp hu with hinit | hlastMem
      · have hle := (List.pairwise_append.mp hrest).2.2 u hinit z (List.mem_singleton.mpr rfl)
        exact hle.2.trans hz
      · rw [List.mem_singleton.mp hlastMem]
        exact hz

end Times

section Span

variable {bytes : List UInt8} {units : V3cUnitType → List V3cUnitInfo}
  {clock : V3cUnitType → Nat → Int} {arrivals : V3cUnitType → List (RtpFrame × Int)}
  {sent : V3cUnitType → SenderState} {recv : V3cUnitType → List Int}

/-- Both logs are those of the same units. -/
theorem InOrderRun.logs (h : InOrderRun bytes units clock arrivals sent recv)
    (hloss : frameLoss (fun t => (sent t).sendTimes) recv = false) {t : V3cUnitType}
    (ht : t.hasStream = true) :
    (sent t).sendTimes = (logged t (clock t) (arrivals t)).map (·.send) ∧
      recv t = (logged t (clock t) (arrivals t)).map (·.recv) := by
  obtain ⟨hne, hrecv⟩ := receive_eq ht (h.receiver t ht)
  have hpushed : ∀ f ∈ (sent t).pushed, f ≠ [] := by
    rw [← h.inOrder t ht]
    exact List.forall_mem_map.mpr hne
  have hsend : (sent t).sendTimes = (logged t (clock t) (arrivals t)).map (·.send) := by
    rw [sendTimes_eq (h.sender t ht) hpushed, ← h.inOrder t ht, List.zipIdx_map, logged,
      List.map_map, List.filter_map, List.map_map]
    rfl
  have hall : (logged t (clock t) (arrivals t)).map (·.recv) =
      ((arrivals t).filter fun a => !isParamSet t (frameType a.1.payload)).map
        fun a => getCurrentTime a.2 := by
    conv_rhs => rw [← List.zipIdx_map_fst 0 (arrivals t), List.filter_map, List.map_map]
    rw [logged, List.map_map]
    rfl
  refine ⟨hsend, ?_⟩
  -- the lengths agree, and so the tests of the sender and of the hook do
  have hlengths := frameLoss_eq_false.mp hloss t ht
  rw [hsend, List.length_map, ← List.length_map (·.recv), hall, hrecv, List.length_map,
    List.length_map, ← List.countP_eq_length_filter, ← List.countP_eq_length_filter] at hlengths
  simp only [hookLogs_eq] at hlengths
  have hagree := (countP_or_eq_iff ?_).mp hlengths
  · rw [hrecv, hall]
    refine congrArg _ (List.filter_congr fun a ha => ?_)
    have hvideo := hagree a ha
    rw [Bool.not_eq_true] at hvideo
    rw [hookLogs_eq, hvideo, Bool.or_false]
  · intro a hvideo hparam
    rw [isParamSet_of_video t (of_decide_eq_true hvideo).2] at hparam
    cases hparam

/-- The clock of each thread does not go back. -/
structure Nondecreasing (clock : V3cUnitType → Nat → Int)
    (arrivals : V3cUnitType → List (RtpFrame × Int)) : Prop where
  send : ∀ t, t.hasStream = true → ∀ i j, i ≤ j → clock t i ≤ clock t j
  recv : ∀ t, t.hasStream = true → (arrivals t).Pairwise fun a b => a.2 ≤ b.2

theorem pairwise_zipIdx {α : Type} {R : α → α → Prop} {l : List α} (h : l.Pairwise R) (k : Nat) :
    (l.zipIdx k).Pairwise fun a b => a.2 ≤ b.2 ∧ R a.1 b.1 := by
  induction l generalizing k with
  | nil => exact List.Pairwise.nil
  | cons a l ih =>
    obtain ⟨hhead, hrest⟩ := List.pairwise_cons.mp h
    rw [List.zipIdx_cons, List.pairwise_cons]
    refine ⟨fun b hb => ⟨?_, hhead b.1 (List.fst_mem_of_mem_zipIdx hb)⟩, ih hrest (k + 1)⟩
    exact (Nat.le_succ k).trans (List.le_snd_of_mem_zipIdx hb)

/-- The logged times do not decrease either. -/
theorem Nondecreasing.logged (h : Nondecreasing clock arrivals) {t : V3cUnitType}
    (ht : t.hasStream = true) :
    (logged t (clock t) (arrivals t)).Pairwise fun a b => a.send ≤ b.send ∧ a.recv ≤ b.recv := by
  refine List.Pairwise.map _ ?_ ((pairwise_zipIdx (h.recv t ht) 0).filter _)
  rintro a b ⟨hindex, htime⟩
  exact ⟨getCurrentTime_mono (h.send t ht _ _ hindex), getCurrentTime_mono htime⟩

/-- The times that are used for each full frame of an in-order run span its NAL units if and
only if the first units do; when no clock goes back, if and only if the last unit of the frame
on each stream comes back before the last of the first units. -/
theorem vpccLatencySender_span (hrun : InOrderRun bytes units clock arrivals sent recv)
    (hloss : frameLoss (fun t => (sent t).sendTimes) recv = false)
    (hwhole : WholeFrames fun t => logged t (clock t) (arrivals t)) :
    ((∀ i f, Used (fun t => (sent t).sendTimes) recv i f →
        Spans (fun t => logged t (clock t) (arrivals t)) i f) ↔
      ∀ i, InLoop (fun t => logged t (clock t) (arrivals t)) i →
        FirstUnitsSpan (fun t => logged t (clock t) (arrivals t)) i) ∧
    (Nondecreasing clock arrivals →
      ((∀ i f, Used (fun t => (sent t).sendTimes) recv i f →
          Spans (fun t => logged t (clock t) (arrivals t)) i f) ↔
        ∀ i, InLoop (fun t => logged t (clock t) (arrivals t)) i →
          LastUnitsInTime (fun t => logged t (clock t) (arrivals t)) i)) := by
  have hused := fun i f => @used_iff _ _ _ i hwhole
    (fun t ht => (hrun.logs hloss ht).1) (fun t ht => (hrun.logs hloss ht).2) f
  have hspan : (∀ i f, Used (fun t => (sent t).sendTimes) recv i f →
        Spans (fun t => logged t (clock t) (arrivals t)) i f) ↔
      ∀ i, InLoop (fun t => logged t (clock t) (arrivals t)) i →
        FirstUnitsSpan (fun t => logged t (clock t) (arrivals t)) i := by
    refine forall_congr' fun i => ⟨fun hall hi => ?_, fun hall f hf => ?_⟩
    · exact (spans_firstUnits_iff hwhole hi).mp (hall _ ((hused i _).mpr ⟨hi, rfl⟩))
    · obtain ⟨hi, rfl⟩ := (hused i f).mp hf
      exact (spans_firstUnits_iff hwhole hi).mpr (hall hi)
  refine ⟨hspan, fun hclock => hspan.trans ?_⟩
  exact forall₂_congr fun i hi => firstUnitsSpan_iff hwhole hi fun t ht => hclock.logged ht

end Span

/-- A file of one full frame. -/
def oneFrame (t : V3cUnitType) : List V3cUnitInfo :=
  [{ header := default, nalInfos := List.replicate (frameUnits t) { size := 2 } }]

/-- Its frames come back at 7 microseconds, the last one of the attribute stream at `last`. -/
def oneFrameArrivals (last : Int) (t : V3cUnitType) : List (RtpFrame × Int) :=
  List.replicate (frameUnits t - 1) ({ payload := [0, 1] }, 7000) ++
    [({ payload := [0, 1] }, if t = .avd then last else 7000)]

/-- What is sent and logged of it. -/
def oneFrameSent (t : V3cUnitType) : SenderState where
  currentFrame := 1
  sendTimes := List.replicate (frameUnits t) 0
  pushed := List.replicate (frameUnits t) [0, 1]

/-- What is received of it. -/
def oneFrameRecv (last : Int) (t : V3cUnitType) : List Int :=
  (oneFrameArrivals last t).map fun a => getCurrentTime a.2

theorem inOrderRun_oneFrame (last : Int) :
    InOrderRun [0, 1] oneFrame (fun _ _ => 0) (oneFrameArrivals last) oneFrameSent
      (oneFrameRecv last) where
  sender t ht := by
    cases t with
    | ad | ovd | gvd | avd => rfl
    | vps | pvd | cad => cases ht
  inOrder t ht := by
    cases t with
    | ad | ovd | gvd | avd => rfl
    | vps | pvd | cad => cases ht
  receiver t ht := by
    cases t with
    | ad | ovd | gvd | avd => rfl
    | vps | pvd | cad => cases ht

theorem wholeFrames_oneFrame (last : Int) :
    WholeFrames fun t => logged t 0 (oneFrameArrivals last t) := by
  have hvcl : ∀ t, isParamSet t (frameType [0, 1]) = false := by
    intro t
    cases t <;> decide
  intro t ht
  cases t with
  | ad | ovd | gvd | avd => simp [logged, oneFrameArrivals, frameUnits, List.replicate, hvcl]
  | vps | pvd | cad => cases ht

theorem nondecreasing_oneFrame {last : Int} (h : 7000 ≤ last) :
    Nondecreasing (fun _ _ => 0) (oneFrameArrivals last) where
  send _ _ _ _ _ := le_refl 0
  recv t ht := by
    cases t with
    | ad | ovd | gvd | avd => simp [oneFrameArrivals, frameUnits, h]
    | vps | pvd | cad => cases ht

/-- A full frame that comes back at once. -/
theorem vpccLatencySender_span_one :
    Spans (fun t => logged t 0 (oneFrameArrivals 7000 t)) 0 { sendTime := 0, recvTime := 7 } := by
  have hiff := (vpccLatencySender_span (inOrderRun_oneFrame 7000) (by decide)
    (wholeFrames_oneFrame 7000)).2 (nondecreasing_oneFrame (by decide))
  refine hiff.mpr ?_ 0 _ ⟨by decide, by simp, by decide⟩
  intro i hi
  have hlt : frameUnits .ad * i < 1 := frameUnits_mul_lt (wholeFrames_oneFrame 7000) hi rfl
  obtain rfl : i = 0 := by simpa [frameUnits] using hlt
  intro t ht
  cases t with
  | ad | ovd | gvd | avd => decide
  | vps | pvd | cad => cases ht

/-- The last unit of the attribute stream takes two milliseconds longer than the others, and the
frame counts as complete before it is there. -/
theorem vpccLatencySender_span_incomplete :
    InOrderRun [0, 1] oneFrame (fun _ _ => 0) (oneFrameArrivals 2007000) oneFrameSent
        (oneFrameRecv 2007000) ∧
      frameLoss (fun t => (oneFrameSent t).sendTimes) (oneFrameRecv 2007000) = false ∧
      (WholeFrames fun t => logged t 0 (oneFrameArrivals 2007000 t)) ∧
      Nondecreasing (fun _ _ => 0) (oneFrameArrivals 2007000) ∧
      Used (fun t => (oneFrameSent t).sendTimes) (oneFrameRecv 2007000) 0
        { sendTime := 0, recvTime := 7 } ∧
      ¬ Spans (fun t => logged t 0 (oneFrameArrivals 2007000 t)) 0
        { sendTime := 0, recvTime := 7 } := by
  refine ⟨inOrderRun_oneFrame _, by decide, wholeFrames_oneFrame _,
    nondecreasing_oneFrame (by decide), ⟨by decide, by simp, by decide⟩, fun hspan => ?_⟩
  exact absurd (hspan .avd rfl { send := 0, recv := 2007 } (by decide)).2 (by decide)

end RtpBenchmarks.Uvgrtp.VpccLatencySender
