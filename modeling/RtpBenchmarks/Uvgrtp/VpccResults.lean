import RtpBenchmarks.Results.Lines
import RtpBenchmarks.Uvgrtp.Receiver

set_option autoImplicit false

/-!
# V-PCC results (`uvgrtp/vpcc_sender.cc`, `uvgrtp/vpcc_receiver.cc`)

`main` adds up the bytes of the four streams and takes the time from the earliest start
to the latest end.  The times are readings of `get_current_time`, in microseconds, and
their difference goes to the result line as it is; the other senders and receivers cast
theirs to milliseconds, as `parse.pl` expects.
-/

namespace RtpBenchmarks.Uvgrtp.VpccResults

open RtpBenchmarks.Foundation
open RtpBenchmarks.Results
open RtpBenchmarks.V3c (V3cUnitType)

/-! ## The code -/

/-- `find_earliest_time_point`. -/
def findEarliestTimePoint (t1 t2 t3 t4 : Int) : Int :=
  min (min (min t1 t2) t3) t4

/-- `find_latest_time_point`. -/
def findLatestTimePoint (t1 t2 t3 t4 : Int) : Int :=
  max (max (max t1 t2) t3) t4

/-- `struct stream_results` of the sender.  The times are kept as `uint64_t` and read as
`long long` again, which gives back the readings of the clock. -/
structure SendResults where
  bytesSent : Nat := 0
  start : Int := 0
  stop : Int := 0
  deriving DecidableEq, Repr, Inhabited

/-- `struct stream_results` of the receiver. -/
structure ReceiveResults where
  packetsReceived : Nat := 0
  bytesReceived : Nat := 0
  start : Int := 0
  last : Int := 0
  deriving DecidableEq, Repr, Inhabited

/-- The sum over the four streams, as a `size_t`. -/
def total (counts : V3cUnitType → Nat) : Nat :=
  (counts .ad + counts .ovd + counts .gvd + counts .avd) % 2 ^ 64

/-- `find_earliest_time_point` of the four streams. -/
def earliest (times : V3cUnitType → Int) : Int :=
  findEarliestTimePoint (times .ad) (times .ovd) (times .gvd) (times .avd)

/-- `find_latest_time_point` of the four streams. -/
def latest (times : V3cUnitType → Int) : Int :=
  findLatestTimePoint (times .ad) (times .ovd) (times .gvd) (times .avd)

/-- The conversion of a `long long` to `uint64_t`. -/
def toUInt64 (d : Int) : Nat :=
  (d % 2 ^ 64).toNat

/-- The line that `main` of the sender writes. -/
def sendLine (r : V3cUnitType → SendResults) : List Char :=
  let start := earliest fun t => (r t).start
  let stop := latest fun t => (r t).stop
  let diff := stop - start
  writeSendResultsToFile (total fun t => (r t).bytesSent) (toUInt64 diff)

/-- The line that `main` of the receiver writes. -/
def receiveLine (r : V3cUnitType → ReceiveResults) : List Char :=
  let start := earliest fun t => (r t).start
  let stop := latest fun t => (r t).last
  let diff := stop - start
  writeReceiveResultsToFile (total fun t => (r t).bytesReceived)
    (total fun t => (r t).packetsReceived) (toUInt64 diff)

/-- The line of `sender_thread` of the uvgRTP sender, whose times are ticks. -/
def senderThreadLine (bytesSent : Nat) (start stop : Int) : List Char :=
  writeSendResultsToFile bytesSent (milliseconds (stop - start))

/-- The line of the uvgRTP receiver. -/
def receiverLine (info : ThreadInfo) : List Char :=
  let line := info.line 0
  writeReceiveResultsToFile line.bytes line.packets line.diffMs

/-! ## Four streams -/

section Times

variable (times : V3cUnitType → Int)

theorem earliest_le {t : V3cUnitType} (ht : t.hasStream = true) : earliest times ≤ times t := by
  unfold earliest findEarliestTimePoint
  cases t with
  | ad | ovd | gvd | avd => omega
  | vps | pvd | cad => cases ht

theorem le_latest {t : V3cUnitType} (ht : t.hasStream = true) : times t ≤ latest times := by
  unfold latest findLatestTimePoint
  cases t with
  | ad | ovd | gvd | avd => omega
  | vps | pvd | cad => cases ht

/-- The earliest time is that of a stream. -/
theorem exists_eq_earliest : ∃ t, t.hasStream = true ∧ earliest times = times t := by
  unfold earliest findEarliestTimePoint
  rcases min_choice (min (min (times .ad) (times .ovd)) (times .gvd)) (times .avd) with h | h
  · rcases min_choice (min (times .ad) (times .ovd)) (times .gvd) with h' | h'
    · rcases min_choice (times .ad) (times .ovd) with h'' | h''
      · exact ⟨.ad, rfl, by rw [h, h', h'']⟩
      · exact ⟨.ovd, rfl, by rw [h, h', h'']⟩
    · exact ⟨.gvd, rfl, by rw [h, h']⟩
  · exact ⟨.avd, rfl, h⟩

/-- The latest time is that of a stream. -/
theorem exists_eq_latest : ∃ t, t.hasStream = true ∧ latest times = times t := by
  unfold latest findLatestTimePoint
  rcases max_choice (max (max (times .ad) (times .ovd)) (times .gvd)) (times .avd) with h | h
  · rcases max_choice (max (times .ad) (times .ovd)) (times .gvd) with h' | h'
    · rcases max_choice (times .ad) (times .ovd) with h'' | h''
      · exact ⟨.ad, rfl, by rw [h, h', h'']⟩
      · exact ⟨.ovd, rfl, by rw [h, h', h'']⟩
    · exact ⟨.gvd, rfl, by rw [h, h']⟩
  · exact ⟨.avd, rfl, h⟩

theorem earliest_congr {a b : V3cUnitType → Int} (h : ∀ t, t.hasStream = true → a t = b t) :
    earliest a = earliest b := by
  simp only [earliest, h .ad rfl, h .ovd rfl, h .gvd rfl, h .avd rfl]

theorem latest_congr {a b : V3cUnitType → Int} (h : ∀ t, t.hasStream = true → a t = b t) :
    latest a = latest b := by
  simp only [latest, h .ad rfl, h .ovd rfl, h .gvd rfl, h .avd rfl]

end Times

/-! ## Units -/

/-- A difference that does not overflow. -/
def InInt64 (d : Int) : Prop :=
  -2 ^ 63 ≤ d ∧ d < 2 ^ 63

instance (d : Int) : Decidable (InInt64 d) :=
  inferInstanceAs (Decidable (_ ∧ _))

/-- A number of microseconds taken for one of milliseconds. -/
theorem toUInt64_eq_milliseconds_iff {d : Int} (h : InInt64 d) :
    toUInt64 d = milliseconds (1000 * d) ↔ d = 0 := by
  have htdiv : (1000 * d).tdiv 1000000 = d.tdiv 1000 :=
    Int.mul_tdiv_mul_of_pos d 1000 (by decide : (0 : Int) < 1000)
  obtain ⟨hlo, hhi⟩ := h
  rw [toUInt64, milliseconds, htdiv]
  rcases Int.lt_or_le d 0 with h0 | h0
  · have hneg : d.tdiv 1000 = -(-d / 1000) := by
      rw [← Int.tdiv_eq_ediv_of_nonneg (by omega), Int.neg_tdiv, Int.neg_neg]
    have hd : d % 2 ^ 64 = d + 2 ^ 64 := by omega
    have hq : -(-d / 1000) % 2 ^ 64 = 0 ∨ -(-d / 1000) % 2 ^ 64 = -(-d / 1000) + 2 ^ 64 := by
      omega
    rw [hneg, hd]
    rcases hq with hq | hq <;> rw [hq] <;> omega
  · have hd : d % 2 ^ 64 = d := Int.emod_eq_of_lt h0 (by omega)
    have hq : d / 1000 % 2 ^ 64 = d / 1000 := Int.emod_eq_of_lt (by omega) (by omega)
    rw [Int.tdiv_eq_ediv_of_nonneg h0, hd, hq]
    omega

/-- The send line speaks milliseconds: its time is the elapsed time cast to milliseconds,
and the goodput computed from it is that of a uvgRTP sender with the same bytes and the
same elapsed time. -/
def SendMilliseconds (r : V3cUnitType → SendResults) : Prop :=
  let elapsed := (latest fun t => (r t).stop) - (earliest fun t => (r t).start)
  (digitRuns (sendLine r))[3]? = some (milliseconds (1000 * elapsed)) ∧
    ∀ start unit filesize, sendGoodput unit filesize (sendLine r) =
      sendGoodput unit filesize
        (senderThreadLine (total fun t => (r t).bytesSent) start (start + 1000 * elapsed))

/-- The same of the receive line. -/
def ReceiveMilliseconds (r : V3cUnitType → ReceiveResults) : Prop :=
  let elapsed := (latest fun t => (r t).last) - (earliest fun t => (r t).start)
  (digitRuns (receiveLine r))[2]? = some (milliseconds (1000 * elapsed)) ∧
    ∀ (info : ThreadInfo) (unit : String) (filesize : ℚ),
      info.bytes = (total fun t => (r t).bytesReceived) →
      info.last - info.start = 1000 * elapsed →
      receiveGoodput unit filesize (receiveLine r) =
        receiveGoodput unit filesize (receiverLine info)

theorem sendMilliseconds_iff {r : V3cUnitType → SendResults}
    (h : InInt64 ((latest fun t => (r t).stop) - (earliest fun t => (r t).start))) :
    SendMilliseconds r ↔ (latest fun t => (r t).stop) = (earliest fun t => (r t).start) := by
  simp only [SendMilliseconds, sendLine, senderThreadLine, digitRuns_send, sendGoodput_eq,
    add_sub_cancel_left, List.getElem?_cons_succ, List.getElem?_cons_zero, Option.some.injEq]
  constructor
  · rintro ⟨hms, -⟩
    exact sub_eq_zero.mp ((toUInt64_eq_milliseconds_iff h).mp hms)
  · intro hnone
    have hms := (toUInt64_eq_milliseconds_iff h).mpr (sub_eq_zero.mpr hnone)
    exact ⟨hms, fun _ _ _ => by rw [hms]⟩

theorem receiveMilliseconds_iff {r : V3cUnitType → ReceiveResults}
    (h : InInt64 ((latest fun t => (r t).last) - (earliest fun t => (r t).start))) :
    ReceiveMilliseconds r ↔
      (latest fun t => (r t).last) = (earliest fun t => (r t).start) := by
  simp only [ReceiveMilliseconds, receiveLine, receiverLine, ThreadInfo.line, digitRuns_receive,
    receiveGoodput_eq, List.getElem?_cons_succ, List.getElem?_cons_zero, Option.some.injEq]
  constructor
  · rintro ⟨hms, -⟩
    exact sub_eq_zero.mp ((toUInt64_eq_milliseconds_iff h).mp hms)
  · intro hnone
    have hms := (toUInt64_eq_milliseconds_iff h).mpr (sub_eq_zero.mpr hnone)
    exact ⟨hms, fun info _ _ hbytes helapsed => by rw [hms, hbytes, helapsed]⟩

/-- The V-PCC programs write milliseconds if and only if no time has passed. -/
theorem vpccResults_milliseconds (send : V3cUnitType → SendResults)
    (recv : V3cUnitType → ReceiveResults)
    (hsend : InInt64 ((latest fun t => (send t).stop) - (earliest fun t => (send t).start)))
    (hrecv : InInt64 ((latest fun t => (recv t).last) - (earliest fun t => (recv t).start))) :
    (SendMilliseconds send ↔
      (latest fun t => (send t).stop) = (earliest fun t => (send t).start)) ∧
    (ReceiveMilliseconds recv ↔
      (latest fun t => (recv t).last) = (earliest fun t => (recv t).start)) :=
  ⟨sendMilliseconds_iff hsend, receiveMilliseconds_iff hrecv⟩

/-- A sender that has nothing to send and a receiver of a single frame. -/
theorem vpccResults_milliseconds_zero :
    SendMilliseconds (fun _ => { start := 7, stop := 7 }) ∧
    ReceiveMilliseconds
      (fun _ => { packetsReceived := 1, bytesReceived := 9, start := 7, last := 7 }) := by
  have h := vpccResults_milliseconds (fun _ => { start := 7, stop := 7 })
    (fun _ => { packetsReceived := 1, bytesReceived := 9, start := 7, last := 7 })
    (by decide) (by decide)
  exact ⟨h.1.mpr rfl, h.2.mpr rfl⟩

/-- Two seconds on the four streams: the line says 2000000 ms, and the goodput of 1000 kB
in Mbit/s comes out as 4/1000. -/
theorem vpccResults_microseconds :
    let r : V3cUnitType → SendResults := fun _ => { bytesSent := 250000, stop := 2000000 }
    (digitRuns (sendLine r))[3]? = some 2000000 ∧
      sendGoodput "mbit" 1000000 (sendLine r) = some (4 / 1000) ∧
      sendGoodput "mbit" 1000000 (senderThreadLine 1000000 0 2000000000) = some 4 ∧
      ¬ SendMilliseconds r := by
  refine ⟨by decide +kernel, by decide +kernel, by decide +kernel, fun h => ?_⟩
  exact absurd ((sendMilliseconds_iff (by decide)).mp h) (by decide)

end RtpBenchmarks.Uvgrtp.VpccResults
