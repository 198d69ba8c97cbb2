import Mathlib.Algebra.Order.BigOperators.Group.List
import Mathlib.Algebra.Order.Field.Basic
import RtpBenchmarks.Live555.Sink

set_option autoImplicit false

/-!
# Results of the Live555 receiver (`recv_benchmark`, `parse_recv`)

The receiving script runs the receiver round after round and dies when it fails, with its
last line and a line about the failure in the file.  `parse_recv` divides by the number of
rounds that the file's name tells, run or not.
-/

namespace RtpBenchmarks.Live555.Sink

open RtpBenchmarks.Foundation
open RtpBenchmarks.Results

/-! ## What is in the file -/

/-- A run of the receiver up to its exit, with the report of `time`. -/
structure Finished where
  events : List Event
  final : State
  run : Run step {} events final
  exited : final.exited ≠ none
  report : TimeReport

namespace Finished

/-- The receiver has exited with code 0. -/
def Succeeded (f : Finished) : Prop :=
  f.final.exited = some 0

instance (f : Finished) : Decidable f.Succeeded :=
  inferInstanceAs (Decidable (_ = _))

/-- When the receiver has exited. -/
def endTime (f : Finished) : Int :=
  (f.events.getLast?.map Event.now).getD 0

/-- The line of a run: no bytes, the frames, and the time of the clock. -/
def result (f : Finished) : ReceiveResult where
  bytes := 0
  packets := received f.events
  ms := milliseconds f.endTime

theorem printed_eq (f : Finished) : f.final.printed = [f.result] := by
  obtain ⟨-, e, he, hprinted⟩ := printed_of_exited f.run f.exited
  rw [hprinted, result, endTime, he]
  rfl

theorem length_printed (f : Finished) : f.final.printed.length = 1 :=
  congrArg List.length f.printed_eq

theorem succeeded_iff (f : Finished) : f.Succeeded ↔ received f.events = lastFrame := by
  rw [← frames_eq_received f.run]
  exact (sound_of_run f.run).exit_zero_iff

theorem received_le (f : Finished) : received f.events ≤ lastFrame :=
  frames_eq_received f.run ▸ (sound_of_run f.run).frames_le

/-- What `time` says of a program whose exit code is 1. -/
def exitText : List Char :=
  " exited with non-zero status 1".toList

theorem newline_not_mem_exitText : '\n' ∉ exitText := by
  decide

/-- The lines of a run. -/
def log (f : Finished) : RunLog ReceiveResult 1 where
  results := f.final.printed
  length_results := f.length_printed
  command := if f.Succeeded then none else some ⟨exitText, newline_not_mem_exitText⟩
  report := f.report

end Finished

/-- The rounds that the receiving script runs of those that it should. -/
def untilFailure : List Finished → List Finished
  | [] => []
  | f :: rest => if f.Succeeded then f :: untilFailure rest else [f]

/-- The result file of a thread count and a frame rate. -/
def logText (rounds : List Finished) : List Char :=
  resultText ReceiveResult.line ((untilFailure rounds).map Finished.log)

/-! ## What is read of it -/

/-- How many frames the rounds that were run have received. -/
def receivedInAll (rounds : List Finished) : Nat :=
  ((untilFailure rounds).map fun f => received f.events).sum

/-- There is one frame at least in the first round. -/
theorem receivedInAll_pos {rounds : List Finished} (h : rounds ≠ []) :
    0 < receivedInAll rounds := by
  obtain ⟨f, rest, rfl⟩ := List.exists_cons_of_ne_nil h
  have hpos := (printed_of_exited f.run f.exited).1
  unfold receivedInAll untilFailure
  split_ifs
  · rw [List.map_cons, List.sum_cons]
    omega
  · simpa using hpos

/-- The rounds make up all frames when none fails, and only then. -/
theorem receivedInAll_le (rounds : List Finished) :
    receivedInAll rounds ≤ rounds.length * lastFrame ∧
      (receivedInAll rounds = rounds.length * lastFrame ↔ ∀ f ∈ rounds, f.Succeeded) := by
  unfold receivedInAll
  induction rounds with
  | nil => simp [untilFailure]
  | cons f rest ih =>
    obtain ⟨hle, hiff⟩ := ih
    have hfirst := f.received_le
    rw [untilFailure, List.length_cons, List.forall_mem_cons, ← hiff, Nat.succ_mul]
    split_ifs with hok
    · have hall := f.succeeded_iff.mp hok
      rw [List.map_cons, List.sum_cons, hall]
      exact ⟨by omega, by simp only [hok, true_and]; omega⟩
    · have hlt := mt f.succeeded_iff.mpr hok
      rw [List.map_singleton, List.sum_singleton]
      exact ⟨by omega, iff_of_false (by omega) fun h => hok h.1⟩

/-- The mean over the one thread of a run. -/
theorem Finished.threadMean_log (f : Finished) (g : ReceiveResult → Nat) :
    f.log.threadMean g = g f.result := by
  have hresults : f.log.results = [f.result] := f.printed_eq
  rw [RunLog.threadMean, hresults]
  simp [mean]

theorem sum_threadMean_log (fs : List Finished) (g : ReceiveResult → Nat) :
    ((fs.map Finished.log).map fun run => run.threadMean g).sum =
      ((fs.map fun f => g f.result).sum : Nat) := by
  rw [List.map_map, Nat.cast_list_sum, List.map_map]
  exact congrArg List.sum (List.map_congr_left fun f _ => f.threadMean_log g)

/-- What is read of the file. -/
theorem exists_parseRecv (unit : String) {rounds : List Finished} (hne : rounds ≠ [])
    {filesize : ℚ} (hsize : 0 < filesize)
    (htime : ∃ f ∈ untilFailure rounds, 0 < milliseconds f.endTime) :
    ∃ v, parseRecv "live555" rounds.length 1 unit filesize (logText rounds) = some v ∧
      v.bytes = 0 ∧ v.goodput = 0 ∧
      v.frameLoss = 1 - receivedInAll rounds / rounds.length / lastFrame := by
  have hrounds : (rounds.length : ℚ) ≠ 0 :=
    Nat.cast_ne_zero.mpr (List.length_pos_of_ne_nil hne).ne'
  -- the sums over the rounds that were run
  have hbytes : (((untilFailure rounds).map Finished.log).map
      fun run => run.threadMean (·.bytes)).sum = 0 := by
    rw [sum_threadMean_log]
    simp [Finished.result]
  have hframes : (((untilFailure rounds).map Finished.log).map
      fun run => run.threadMean (·.packets)).sum = receivedInAll rounds :=
    sum_threadMean_log _ _
  have hms : (((untilFailure rounds).map Finished.log).map
      fun run => run.threadMean (·.ms)).sum ≠ 0 := by
    obtain ⟨f, hf, hpos⟩ := htime
    rw [sum_threadMean_log, Nat.cast_ne_zero]
    have hle : f.result.ms ≤ ((untilFailure rounds).map fun f => f.result.ms).sum :=
      List.le_sum_of_mem (List.mem_map_of_mem hf)
    exact (Nat.lt_of_lt_of_le hpos hle).ne'
  have hgoodput (time : ℚ) (ht : time ≠ 0) : goodput 0 time unit = some 0 := by
    unfold goodput
    rw [if_neg ht]
    split_ifs <;> simp
  have hcount : ¬ (rounds.length = 0 ∨ filesize = 0) := by simp [hne, hsize.ne']
  unfold parseRecv logText
  rw [textLines_resultText ReceiveResult.isLine, recvLoop_lines (by decide) (Nat.le_refl 1)]
  simp only [foldl_add, zero_add, Option.bind_eq_bind, Option.bind_some, if_neg hcount, hbytes,
    hframes, zero_div, mul_zero, hgoodput _ (div_ne_zero hms hrounds)]
  refine ⟨_, rfl, rfl, rfl, ?_⟩
  rfl

/-- A sender that stops after two frames. -/
def silentEvents : List Event :=
  [.frame 1, .monitor 2000000, .frame 2000001, .monitor 4000000, .monitor 6000000]

def silentRound : Finished where
  events := silentEvents
  final := (silentEvents.foldlM step {}).get (by decide)
  run := run_get (by decide)
  exited := by decide
  report := plainReport 600 (by decide)

end RtpBenchmarks.Live555.Sink
