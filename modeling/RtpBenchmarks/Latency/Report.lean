import RtpBenchmarks.Foundation.Averages

set_option autoImplicit false

/-!
# The report of a latency sender

The three latency senders end with the same line,
`"%zu: intra %lf, inter %lf, avg %lf\n"`: a number of frames and three averages, which
are compared across the programs.  An average is printed as the quotient of a total of
milliseconds and a counter.
-/

namespace RtpBenchmarks.Latency

open RtpBenchmarks.Foundation

/-- The line that is printed, with each quotient as its two numbers. -/
structure Report where
  frames : Nat
  intra : Average
  inter : Average
  avg : Average
  deriving DecidableEq, Repr

/-- The overall average is that over the intra and the inter frames, and lies between
the two averages whenever there are both. -/
structure Report.Consistent (r : Report) : Prop where
  avg_eq : r.avg.value = (r.intra.combine r.inter).value
  between : ∀ x y, r.intra.value = some x → r.inter.value = some y →
    ∃ z, r.avg.value = some z ∧ min x y ≤ z ∧ z ≤ max x y

/-- The second follows from the first. -/
theorem Report.consistent_iff {r : Report} :
    r.Consistent ↔ r.avg.value = (r.intra.combine r.inter).value := by
  refine ⟨Consistent.avg_eq, fun h => ⟨h, fun x y hx hy => ?_⟩⟩
  rw [h]
  exact Average.combine_between hx hy

end RtpBenchmarks.Latency
