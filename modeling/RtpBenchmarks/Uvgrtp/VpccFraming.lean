import RtpBenchmarks.Results.ParseRecv
import RtpBenchmarks.Results.ParseSend
import RtpBenchmarks.Uvgrtp.VpccResults

set_option autoImplicit false

/-!
# Result files of V-PCC (`benchmark.pl`, `uvgrtp/vpcc_sender.cc`, `uvgrtp/vpcc_receiver.cc`)

`benchmark.pl` starts the V-PCC programs for every thread count and names the result file after
it.  The programs do not read their argument: they use four streams and write one line.
`parse.pl` takes the thread count from the name and reads as many lines for a run.
-/

namespace RtpBenchmarks.Uvgrtp.VpccFraming

open RtpBenchmarks.Foundation
open RtpBenchmarks.Results
open RtpBenchmarks.Uvgrtp.VpccResults
open RtpBenchmarks.V3c (V3cUnitType)

/-! ## The files -/

/-- A round of the benchmark: the results of the four streams and the report of `time`. -/
structure Round (α : Type) where
  streams : V3cUnitType → α
  report : TimeReport

/-- The result lines of `main` of the sender, which does not read `nthreads`. -/
def senderMain (_nthreads : Nat) (streams : V3cUnitType → SendResults) : List (List Char) :=
  [sendLine streams]

/-- The result lines of `main` of the receiver, which does not read `nthreads`. -/
def receiverMain (_nthreads : Nat) (streams : V3cUnitType → ReceiveResults) :
    List (List Char) :=
  [receiveLine streams]

/-- The result file of a thread count after all rounds. -/
def fileText {α : Type} (main : Nat → (V3cUnitType → α) → List (List Char)) (nthreads : Nat)
    (rounds : List (Round α)) : List Char :=
  (rounds.flatMap fun round =>
    main nthreads round.streams ++ [round.report.timeLine, round.report.pageLine]).flatten

/-- The numbers that a sender writes in a round. -/
def sendResult (r : V3cUnitType → SendResults) : SendResult where
  bytes := total fun t => (r t).bytesSent
  diff := toUInt64 ((latest fun t => (r t).stop) - earliest fun t => (r t).start)

/-- The numbers that a receiver writes in a round. -/
def receiveResult (r : V3cUnitType → ReceiveResults) : ReceiveResult where
  bytes := total fun t => (r t).bytesReceived
  packets := total fun t => (r t).packetsReceived
  ms := toUInt64 ((latest fun t => (r t).last) - earliest fun t => (r t).start)

/-- What is written of a round for `parse_send`. -/
def Round.sendEntry (round : Round SendResults) : SendEntry where
  time := (sendResult round.streams).diff
  usage := some round.report.usage

/-- What is written of a round for `parse_recv`. -/
def Round.recvEntry (round : Round ReceiveResults) : RecvEntry where
  sums :=
    { bytes := (receiveResult round.streams).bytes
      frames := (receiveResult round.streams).packets
      time := (receiveResult round.streams).ms }
  usage := round.report.usage

/-! ## Agreement with the reader -/

/-- In each round a program writes as many lines as are read for a run of `t` threads. -/
def LinesAgree {α : Type} (main : Nat → (V3cUnitType → α) → List (List Char)) (t : Nat)
    (rounds : List (Round α)) : Prop :=
  ∀ round ∈ rounds, (main t round.streams).length = t

/-- What `parse_send` reads of the runs is what was written in them. -/
def SendNumbersAgree (t : Nat) (rounds : List (Round SendResults)) : Prop :=
  (sendLoop t).run (textLines (fileText senderMain t rounds)) =
    some (rounds.map Round.sendEntry)

/-- What `parse_recv` reads of the runs is what was written in them. -/
def ReceiveNumbersAgree (t : Nat) (rounds : List (Round ReceiveResults)) : Prop :=
  (recvLoop "uvgrtp" t).run (textLines (fileText receiverMain t rounds)) =
    some (rounds.map Round.recvEntry)

/-- A round as a run with one line. -/
def Round.log {α β : Type} (result : (V3cUnitType → α) → β) (round : Round α) : RunLog β 1 where
  results := [result round.streams]
  length_results := rfl
  command := none
  report := round.report

section Agreement

variable {t : Nat}

theorem linesAgree_iff {α : Type} {main : Nat → (V3cUnitType → α) → List (List Char)}
    (hmain : ∀ streams, (main t streams).length = 1) {rounds : List (Round α)} :
    LinesAgree main t rounds ↔ rounds = [] ∨ t = 1 := by
  cases rounds with
  | nil => simp [LinesAgree]
  | cons round rounds =>
    constructor
    · intro h
      have hround := h round (List.mem_cons_self ..)
      rw [hmain] at hround
      exact .inr hround.symm
    · rintro (h | rfl)
      · cases h
      · exact fun round _ => hmain round.streams

theorem textLines_sender (t : Nat) (rounds : List (Round SendResults)) :
    textLines (fileText senderMain t rounds) =
      (rounds.map (Round.log sendResult)).flatMap (RunLog.lines SendResult.line) := by
  rw [← textLines_resultText SendResult.isLine, resultText, List.flatMap_map]
  rfl

theorem textLines_receiver (t : Nat) (rounds : List (Round ReceiveResults)) :
    textLines (fileText receiverMain t rounds) =
      (rounds.map (Round.log receiveResult)).flatMap (RunLog.lines ReceiveResult.line) := by
  rw [← textLines_resultText ReceiveResult.isLine, resultText, List.flatMap_map]
  rfl

theorem message_log {α β : Type} {result : (V3cUnitType → α) → β} {rounds : List (Round α)} :
    ∀ run ∈ rounds.map (Round.log result), run.message = [] := by
  intro run hrun
  obtain ⟨round, -, rfl⟩ := List.mem_map.mp hrun
  rfl

theorem found_sendEntry (rounds : List (Round SendResults)) :
    (rounds.map Round.sendEntry).countP SendEntry.found = rounds.length := by
  rw [List.countP_map, ← List.countP_true]
  rfl

theorem sendNumbersAgree_iff {rounds : List (Round SendResults)} :
    SendNumbersAgree t rounds ↔ rounds = [] ∨ t = 1 := by
  unfold SendNumbersAgree
  rw [textLines_sender]
  constructor
  · intro h
    by_contra hnot
    obtain ⟨hrounds, ht⟩ := not_or.mp hnot
    have hlogs : rounds.map (Round.log sendResult) ≠ [] := by simpa using hrounds
    rcases Nat.lt_or_ge 1 t with hlt | hle
    · have hfound := sendLoop_found_lt (Nat.le_refl 1) hlt hlogs message_log h
      rw [found_sendEntry, List.length_map] at hfound
      exact Nat.lt_irrefl _ hfound
    · -- without threads the first run ends in a division by zero
      obtain rfl : t = 0 := by omega
      obtain ⟨round, rounds', rfl⟩ := List.exists_cons_of_ne_nil hrounds
      have hdies : (sendLoop 0).run (((round :: rounds').map (Round.log sendResult)).flatMap
          (RunLog.lines SendResult.line)) = none := by
        refine ReadLoop.run_cons_none ?_
        simp [sendLoop, sendRun, SendResult.not_skipped, sendThreads]
      rw [hdies] at h
      cases h
  · rintro (rfl | rfl)
    · exact ReadLoop.run_nil
    · rw [sendLoop_lines (Nat.le_refl 1), List.filterMap_map]
      refine congrArg some ?_
      rw [← List.filterMap_eq_map]
      congr 1
      funext round
      simp [Round.log, Round.sendEntry, RunLog.sendEntry, RunLog.leftOut, sendTime]

theorem receiveNumbersAgree_iff {rounds : List (Round ReceiveResults)} :
    ReceiveNumbersAgree t rounds ↔ rounds = [] ∨ t = 1 := by
  have hlib : "uvgrtp" ≠ "ffmpeg" := by decide
  unfold ReceiveNumbersAgree
  rw [textLines_receiver]
  constructor
  · intro h
    by_contra hnot
    obtain ⟨hrounds, ht⟩ := not_or.mp hnot
    have hlogs : rounds.map (Round.log receiveResult) ≠ [] := by simpa using hrounds
    rcases Nat.lt_or_ge 1 t with hlt | hle
    · have hlength := recvLoop_length_lt hlib hlt hlogs message_log h
      rw [List.length_map, List.length_map] at hlength
      exact Nat.lt_irrefl _ hlength
    · -- without threads the first run ends in a division by zero
      obtain rfl : t = 0 := by omega
      obtain ⟨round, rounds', rfl⟩ := List.exists_cons_of_ne_nil hrounds
      have hdies : (recvLoop "uvgrtp" 0).run (((round :: rounds').map
          (Round.log receiveResult)).flatMap (RunLog.lines ReceiveResult.line)) = none := by
        refine ReadLoop.run_cons_none ?_
        simp [recvLoop, recvRun, skippedByRecv]
      rw [hdies] at h
      cases h
  · rintro (rfl | rfl)
    · exact ReadLoop.run_nil
    · rw [recvLoop_lines hlib (Nat.le_refl 1), List.map_map]
      refine congrArg some (List.map_congr_left fun round _ => ?_)
      simp [Round.log, Round.recvEntry, RunLog.recvEntry, threadSums]

end Agreement

/-- The V-PCC programs agree with `parse.pl`, in the number of lines and in the numbers read, if
and only if there are no rounds or there is one thread. -/
theorem framing_iff (t : Nat) (sends : List (Round SendResults))
    (recvs : List (Round ReceiveResults)) :
    (LinesAgree senderMain t sends ↔ sends = [] ∨ t = 1) ∧
    (SendNumbersAgree t sends ↔ sends = [] ∨ t = 1) ∧
    (LinesAgree receiverMain t recvs ↔ recvs = [] ∨ t = 1) ∧
    (ReceiveNumbersAgree t recvs ↔ recvs = [] ∨ t = 1) :=
  ⟨linesAgree_iff fun _ => rfl, sendNumbersAgree_iff, linesAgree_iff fun _ => rfl,
    receiveNumbersAgree_iff⟩

/-- Two rounds with two threads: the sender writes one line in each where two are read, and not
what it has written is found. -/
theorem framing_two_threads :
    let round : Round SendResults :=
      { streams := fun _ => { bytesSent := 250000, stop := 2000000 }
        report := plainReport 120 (by decide) }
    (senderMain 2 round.streams).length = 1 ∧ ¬ LinesAgree senderMain 2 [round, round] ∧
      ¬ SendNumbersAgree 2 [round, round] := by
  refine ⟨rfl, fun h => ?_, fun h => ?_⟩
  · exact absurd (h _ (List.mem_cons_self ..)) (by decide)
  · exact absurd (sendNumbersAgree_iff.mp h) (by simp)

end RtpBenchmarks.Uvgrtp.VpccFraming
