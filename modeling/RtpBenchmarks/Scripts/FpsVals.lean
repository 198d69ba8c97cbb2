import Mathlib.Algebra.Order.Field.Rat
import Mathlib.Tactic.Linarith
import Mathlib.Tactic.NormNum
import RtpBenchmarks.Foundation.DecimalText

set_option autoImplicit false

/-!
# Benchmark scripts: frame rates (`benchmark.pl`)

The frame rates of a benchmark are given as a list, or as a range that is walked by doubling or
in steps.  They are used as texts: in the name of a result file and on the command line of the
programs.
-/

namespace RtpBenchmarks.Scripts

open RtpBenchmarks.Foundation

/-! ## The code -/

/-- `--start`, `--end`, `--step` and `--fps`. -/
structure FpsOptions where
  start : ℚ := 0
  stop : ℚ := 0
  step : Int := 0
  fps : List Char := []
  deriving DecidableEq

/-- `clamp`. -/
def clamp (start stop : ℚ) : ℚ × ℚ :=
  (if start < 30 then 30 else start, if stop > 5000 then 5000 else stop)

/-- `if ($step) { $i += $step; } else { $i *= 2; }`. -/
def nextFps (step : Int) (i : ℚ) : ℚ :=
  if step = 0 then i * 2 else i + step

/-- What the loop has pushed after at most `rounds` rounds, from `i` on. -/
def fpsLoop (step : Int) (stop : ℚ) : Nat → ℚ → List ℚ
  | 0, _ => []
  | rounds + 1, i => if i ≤ stop then i :: fpsLoop step stop rounds (nextFps step i) else []

/-- The texts between the commas. -/
def commaFields : List Char → List (List Char)
  | [] => [[]]
  | c :: text =>
    match commaFields text with
    | [] => [[c]]
    | field :: fields => if c = ',' then [] :: field :: fields else (c :: field) :: fields

/-- `split ","`, which drops the empty fields at the end. -/
def splitComma (text : List Char) : List (List Char) :=
  ((commaFields text).reverse.dropWhile List.isEmpty).reverse

/-- The texts that are true in Perl. -/
def isTrue (text : List Char) : Bool :=
  text != [] && text != ['0']

/-- `@fps_vals`, with the loop cut off after `rounds` rounds and `number` for the text of a
number. -/
def fpsVals (number : ℚ → List Char) (rounds : Nat) (o : FpsOptions) : List (List Char) :=
  if isTrue o.fps then splitComma o.fps
  else
    let (start, stop) := clamp o.start o.stop
    (fpsLoop o.step stop rounds start).map number

/-! ## The range -/

section Range

variable {step : Int} {stop i : ℚ}

/-- Upwards every value is at least one more than the one before it. -/
theorem add_one_le_nextFps (hstep : 0 ≤ step) (hi : 1 ≤ i) : i + 1 ≤ nextFps step i := by
  unfold nextFps
  split_ifs with h
  · linarith
  · have hpos : (1 : Int) ≤ step := by omega
    have hcast : (1 : ℚ) ≤ step := by exact_mod_cast hpos
    linarith

/-- The loop ends: it has nothing to push after as many rounds as the range is long. -/
theorem fpsLoop_eq_of_le (hstep : 0 ≤ step) {n m : Nat} (hi : 1 ≤ i) (hn : stop - i < n)
    (hnm : n ≤ m) : fpsLoop step stop m i = fpsLoop step stop n i := by
  induction n generalizing m i with
  | zero =>
    have hlt : ¬ i ≤ stop := by
      rw [Nat.cast_zero] at hn
      linarith
    cases m with
    | zero => rfl
    | succ m => exact if_neg hlt
  | succ n ih =>
    obtain ⟨k, rfl⟩ := Nat.exists_eq_add_of_le hnm
    have hnext := add_one_le_nextFps hstep hi
    have hrest : stop - nextFps step i < n := by
      rw [Nat.cast_succ] at hn
      linarith
    rw [Nat.add_right_comm, fpsLoop, fpsLoop, ih (by linarith) hrest (Nat.le_add_right n k)]

/-- From an integer on all values are integers within the bound. -/
theorem exists_nat_of_mem_fpsLoop (hstep : 0 ≤ step) {n start : Nat} {v : ℚ}
    (h : v ∈ fpsLoop step stop n start) : ∃ k : Nat, v = k ∧ (k : ℚ) ≤ stop := by
  induction n generalizing start with
  | zero => cases h
  | succ n ih =>
    rw [fpsLoop] at h
    split_ifs at h with hle
    · rcases List.mem_cons.mp h with rfl | h
      · exact ⟨start, rfl, hle⟩
      · have hnext : ∃ k : Nat, nextFps step start = k := by
          unfold nextFps
          split_ifs
          · exact ⟨start * 2, by push_cast; rfl⟩
          · obtain ⟨d, rfl⟩ := Int.eq_ofNat_of_zero_le hstep
            exact ⟨start + d, by push_cast; rfl⟩
        obtain ⟨k, hk⟩ := hnext
        rw [hk] at h
        exact ih h
    · cases h

/-- A range from an integer on is written in digits. -/
theorem isDigits_fpsVals {number : ℚ → List Char}
    (hnumber : ∀ n : Nat, n ≤ 5000 → number n = decimal n) {o : FpsOptions}
    (hfps : isTrue o.fps = false) (hstep : 0 ≤ o.step) {start : Nat} (hstart : o.start = start)
    {rounds : Nat} {fps : List Char} (h : fps ∈ fpsVals number rounds o) : IsDigits fps := by
  rw [fpsVals, hfps, if_neg Bool.false_ne_true] at h
  obtain ⟨v, hv, rfl⟩ := List.mem_map.mp h
  have hclamp : ∃ n : Nat, (clamp o.start o.stop).1 = n := by
    simp only [clamp, hstart]
    split_ifs
    · exact ⟨30, rfl⟩
    · exact ⟨start, rfl⟩
  have hstop : (clamp o.start o.stop).2 ≤ 5000 := by
    simp only [clamp]
    split_ifs with hgt
    · exact le_refl _
    · exact not_lt.mp hgt
  obtain ⟨n, hn⟩ := hclamp
  change v ∈ fpsLoop o.step (clamp o.start o.stop).2 rounds (clamp o.start o.stop).1 at hv
  rw [hn] at hv
  obtain ⟨k, rfl, hk⟩ := exists_nat_of_mem_fpsLoop hstep hv
  have hle : k ≤ 5000 := by exact_mod_cast hk.trans hstop
  rw [hnumber k hle]
  exact isDigits_decimal k

end Range

end RtpBenchmarks.Scripts
