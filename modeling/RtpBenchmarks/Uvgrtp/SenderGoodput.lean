import Mathlib.Algebra.Order.BigOperators.Group.List
import Mathlib.Algebra.Order.Field.Basic
import RtpBenchmarks.Uvgrtp.Sender

set_option autoImplicit false

/-!
# Goodput of a paced sender (`sender.cc`, `parse_send`)

No thread comes to its end before the last of its pieces has had its time.  So the goodput
that `parse_send` reads of the lines of a log is never above the size of the file over the
time that all pieces are to take, however fast the library is.
-/

namespace RtpBenchmarks.Uvgrtp.Sender

open RtpBenchmarks.Foundation
open RtpBenchmarks.Results

variable {c : Setup} {nthreads : Nat} {jobs : List Job}

/-- The milliseconds that the pieces are to take. -/
def plannedMs (c : Setup) (jobs : List Job) : Nat :=
  (sendable c.bytes jobs).length * c.period / 1000

/-- The lines of the run are those that the threads have written. -/
def SentBy (c : Setup) (jobs : List Job) (r : SendRun nthreads) : Prop :=
  ∃ evs s, Run (step c) (initial nthreads jobs) evs s ∧
    EveryStep (step c) (fun _ s e => s.Each (Timely c) e) (initial nthreads jobs) evs ∧
    s.log = r.run.results

/-- No thread takes less than the time that is planned, and so neither does the mean. -/
theorem SentBy.le_meanTime (hthreads : 1 ≤ nthreads)
    (hfit : (sendable c.bytes jobs).length * c.period < 2 ^ 63) {r : SendRun nthreads}
    (h : SentBy c jobs r) : (plannedMs c jobs : ℚ) ≤ r.meanTime := by
  obtain ⟨evs, s, hrun, htimely, hlog⟩ := h
  have hlines := forall_log hfit hrun htimely
  rw [hlog] at hlines
  have hpos : (0 : ℚ) < nthreads := Nat.cast_pos.mpr hthreads
  have hsum : nthreads • (plannedMs c jobs : ℚ) ≤ sendTime r.run.results := by
    have hcard := List.card_nsmul_le_sum (r.run.results.map fun r => (r.diff : ℚ))
      (plannedMs c jobs : ℚ) (List.forall_mem_map.mpr fun result hresult =>
        Nat.cast_le.mpr (hlines result hresult).2)
    rwa [List.length_map, r.run.length_results] at hcard
  rw [SendRun.meanTime, le_div_iff₀ hpos, mul_comm, ← nsmul_eq_mul]
  exact hsum

/-- Two chunks, two milliseconds apart. -/
def paced : Setup where
  library := .ffmpeg
  bytes := []
  period := 2000

/-- Two threads that take turns. -/
def pacedRun : List (Nat × Action) :=
  [(0, .begin 0), (1, .begin 0), (0, .push true ⟨0, 0, 2000000⟩), (1, .push false ⟨0, 0, 2000000⟩),
    (1, .push true ⟨2000000, 2000000, 4000000⟩), (0, .push true ⟨2000000, 2000000, 4000000⟩),
    (1, .finish 4100000), (0, .finish 4200000)]

theorem sentBy_pacedRun : SentBy paced (videoJobs [500000, 500000]) (runOfTimes 4 4) := by
  refine ⟨pacedRun, _, run_get (by decide +kernel), by decide +kernel, ?_⟩
  decide +kernel

end RtpBenchmarks.Uvgrtp.Sender
