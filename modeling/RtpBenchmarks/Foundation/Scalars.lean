import Mathlib.Algebra.Group.Nat.Defs
import Mathlib.Algebra.Ring.Int.Defs

set_option autoImplicit false

/-!
# Foundation: counters and durations

An atomic `int` is an integer that wraps around.  Time points and durations of the
clock are integers that count its ticks, one nanosecond each; a duration is cast to a
coarser unit by truncation towards zero and its count then stored in a `uint64_t`.
-/

namespace RtpBenchmarks.Foundation

/-- `++` on a `std::atomic<int>`. -/
def atomicInc (x : Int) : Int :=
  (x + 1).bmod (2 ^ 32)

/-- Below the largest `int`, an increment does not wrap around. -/
theorem atomicInc_of_lt {x : Int} (h0 : 0 ≤ x) (h : x + 1 < 2 ^ 31) :
    atomicInc x = x + 1 := by
  refine Int.bmod_eq_of_le_mul_two ?_ ?_ <;> omega

/-- `duration_cast<milliseconds>(d).count()` as a `uint64_t`. -/
def milliseconds (d : Int) : Nat :=
  (d.tdiv 1000000 % 2 ^ 64).toNat

/-- `duration_cast<microseconds>(d).count()` as a `uint64_t`. -/
def microseconds (d : Int) : Nat :=
  (d.tdiv 1000 % 2 ^ 64).toNat

/-- Durations that are not negative and fit the clock are truncated. -/
theorem milliseconds_of_nonneg {d : Int} (h0 : 0 ≤ d) (h : d < 2 ^ 63) :
    (milliseconds d : Int) = d / 1000000 := by
  rw [milliseconds, Int.tdiv_eq_ediv_of_nonneg h0]
  omega

theorem microseconds_lt (d : Int) : microseconds d < 2 ^ 64 := by
  unfold microseconds
  omega

/-- Durations that are not negative and whose microseconds fit 64 bits are truncated. -/
theorem microseconds_of_nonneg {d : Int} (h0 : 0 ≤ d) (h : d < 1000 * 2 ^ 64) :
    (microseconds d : Int) = d / 1000 := by
  rw [microseconds, Int.tdiv_eq_ediv_of_nonneg h0]
  omega

end RtpBenchmarks.Foundation
