import Mathlib.Algebra.Order.Field.Rat
import RtpBenchmarks.Foundation.DecimalText

set_option autoImplicit false

/-!
# Result lines (`util/util.cc`, `parse.pl`)

Every sender ends a run with a line of `write_send_results_to_file`, every receiver with
one of `write_receive_results_to_file`.  `parse.pl` reads the numbers of a line by their
position and computes the goodput from the time among them, which its formulas take to be
in milliseconds.
-/

namespace RtpBenchmarks.Results

open RtpBenchmarks.Foundation

/-! ## The writers -/

/-- The fields of the line of `write_send_results_to_file`. -/
def sendFields (bytes diff : Nat) : List Field :=
  [(bytes, " bytes, ".toList), (bytes / 1000, " kB, ".toList),
    (bytes / 1000000, " MB took ".toList), (diff, " ms ".toList), (diff / 1000, " s\n".toList)]

/-- The line of `write_send_results_to_file`. -/
def writeSendResultsToFile (bytes diff : Nat) : List Char :=
  fieldsText (sendFields bytes diff)

/-- The fields of the line of `write_receive_results_to_file`. -/
def receiveFields (bytes packets diffMs : Nat) : List Field :=
  [(bytes, " ".toList), (packets, " ".toList), (diffMs, "\n".toList)]

/-- The line of `write_receive_results_to_file`. -/
def writeReceiveResultsToFile (bytes packets diffMs : Nat) : List Char :=
  fieldsText (receiveFields bytes packets diffMs)

/-- The numbers of a send line. -/
theorem digitRuns_send (bytes diff : Nat) :
    digitRuns (writeSendResultsToFile bytes diff) =
      [bytes, bytes / 1000, bytes / 1000000, diff, diff / 1000] := by
  refine digitRuns_fieldsText fun f hf => ?_
  simp only [sendFields, List.mem_cons, List.not_mem_nil, or_false] at hf
  rcases hf with rfl | rfl | rfl | rfl | rfl <;> dsimp only <;> decide

/-- The numbers of a receive line. -/
theorem digitRuns_receive (bytes packets diffMs : Nat) :
    digitRuns (writeReceiveResultsToFile bytes packets diffMs) = [bytes, packets, diffMs] := by
  refine digitRuns_fieldsText fun f hf => ?_
  simp only [receiveFields, List.mem_cons, List.not_mem_nil, or_false] at hf
  rcases hf with rfl | rfl | rfl <;> dsimp only <;> decide

/-! ## The reader -/

/-- `goodput`; `none` where the division dies. -/
def goodput (amount time : ℚ) (unit : String) : Option ℚ :=
  if time = 0 then none
  else if unit = "mbit" ∨ unit = "Mbit" then some (8 * (amount / 1000) / time)
  else if unit = "mb" ∨ unit = "MB" then some (amount / 1000 / time)
  else some (8 * (amount / 1000 / 1000) / time)

theorem exists_goodput (amount : ℚ) {time : ℚ} (htime : time ≠ 0) (unit : String) :
    ∃ gp, goodput amount time unit = some gp := by
  unfold goodput
  rw [if_neg htime]
  split_ifs <;> exact ⟨_, rfl⟩

/-- What `parse_send` makes of the line of a single thread. -/
def sendGoodput (unit : String) (filesize : ℚ) (line : List Char) : Option ℚ := do
  let time : Nat ← (digitRuns line)[3]?
  goodput filesize time unit

/-- What `parse_recv` makes of the line of a single thread. -/
def receiveGoodput (unit : String) (filesize : ℚ) (line : List Char) : Option ℚ := do
  let bytes : Nat ← (digitRuns line)[0]?
  let time : Nat ← (digitRuns line)[2]?
  if filesize = 0 then none
  else goodput (filesize * (bytes / filesize)) time unit

theorem sendGoodput_eq (unit : String) (filesize : ℚ) (bytes diff : Nat) :
    sendGoodput unit filesize (writeSendResultsToFile bytes diff) =
      goodput filesize diff unit := by
  rw [sendGoodput, digitRuns_send]
  rfl

theorem receiveGoodput_eq (unit : String) (filesize : ℚ) (bytes packets diffMs : Nat) :
    receiveGoodput unit filesize (writeReceiveResultsToFile bytes packets diffMs) =
      if filesize = 0 then none
      else goodput (filesize * (bytes / filesize)) diffMs unit := by
  rw [receiveGoodput, digitRuns_receive]
  rfl

end RtpBenchmarks.Results
