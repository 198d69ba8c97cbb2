import RtpBenchmarks.Results.SendLog

set_option autoImplicit false

/-!
# The goodput of a single thread (`parse_send`)

A comment in `parse_send` says that the goodput of a single thread is the mean over the threads
of the speed at which each of them has sent the data.  The code takes the mean of the times and
divides the amount of data by that.
-/

namespace RtpBenchmarks.Results

open RtpBenchmarks.Foundation
open RtpBenchmarks.Means

variable {threads : Nat}

/-- "for each thread, calculate the speed at which the data was sent, sum all those together
and divide by the number of threads"; `none` where a thread reports no time. -/
def SendRun.threadGoodput (unit : String) (filesize : ℚ) (r : SendRun threads) : Option ℚ :=
  (r.run.results.mapM fun result => goodput filesize result.diff unit).map mean

/-- The mean of that over the runs. -/
def statedGoodput (unit : String) (filesize : ℚ) (log : List (SendRun threads)) : Option ℚ :=
  (log.mapM (SendRun.threadGoodput unit filesize)).map mean

/-- `parse_send` returns the goodput of a single thread that its comment states. -/
def SingleAsStated (unit : String) (filesize : ℚ) (log : List (SendRun threads)) : Prop :=
  ∃ v, parseSend log.length threads unit filesize (sendText log) = some v ∧
    statedGoodput unit filesize log = some v.sgp

section Stated

variable {unit : String} {filesize : ℚ} {log : List (SendRun threads)} {r : SendRun threads}

/-- The times of the threads. -/
def SendRun.times (r : SendRun threads) : List ℚ :=
  r.run.results.map fun result => (result.diff : ℚ)

theorem SendRun.length_times (r : SendRun threads) : r.times.length = threads := by
  rw [SendRun.times, List.length_map, r.run.length_results]

/-- A run whose threads all report a time. -/
def SendRun.Timed (r : SendRun threads) : Prop :=
  ∀ result ∈ r.run.results, result.diff ≠ 0

theorem SendRun.Timed.pos (h : r.Timed) : ∀ x ∈ r.times, 0 < x :=
  List.forall_mem_map.mpr fun result hresult =>
    Nat.cast_pos.mpr (Nat.pos_of_ne_zero (h result hresult))

/-- The goodput of a run as the code computes it. -/
theorem SendRun.div_meanTime (r : SendRun threads) (c : ℚ) :
    c / r.meanTime = c * (r.times.length / r.times.sum) := by
  rw [r.length_times, SendRun.meanTime, div_div_eq_mul_div, mul_div_assoc]
  rfl

/-- The goodput of a run as it is stated. -/
theorem SendRun.threadGoodput_eq (r : SendRun threads) (unit : String) (filesize : ℚ)
    [Decidable r.Timed] :
    r.threadGoodput unit filesize = if r.Timed then
      some (unitFactor unit * filesize * ((r.times.map fun x => 1 / x).sum / r.times.length))
    else none := by
  have htimed : (∀ result ∈ r.run.results, (result.diff : ℚ) ≠ 0) ↔ r.Timed :=
    forall₂_congr fun _ _ => Nat.cast_ne_zero
  rw [SendRun.threadGoodput, mapM_goodput filesize unit fun result : SendResult =>
    (result.diff : ℚ)]
  by_cases h : r.Timed
  · rw [if_pos (htimed.mpr h), if_pos h, Option.map_some, mean, List.length_map,
      SendRun.times, List.length_map, List.map_map, mul_div_assoc', ← List.sum_map_mul_left]
    simp only [Function.comp_def, mul_one_div]
  · rw [if_neg fun hall => h (htimed.mp hall), if_neg h, Option.map_none]

theorem statedGoodput_eq_some_iff {gp : ℚ} :
    statedGoodput unit filesize log = some gp ↔ (∀ r ∈ log, r.Timed) ∧
      (log.map fun r => unitFactor unit * filesize *
        ((r.times.map fun x => 1 / x).sum / r.times.length)).sum / log.length = gp := by
  classical
  have hmapM : log.mapM (SendRun.threadGoodput unit filesize) =
      if ∀ r ∈ log, r.Timed then some (log.map fun r => unitFactor unit * filesize *
        ((r.times.map fun x => 1 / x).sum / r.times.length)) else none := by
    induction log with
    | nil => simp
    | cons r log ih =>
      rw [List.mapM_cons, ih, r.threadGoodput_eq]
      by_cases hr : r.Timed
      · by_cases hlog : ∀ r ∈ log, r.Timed
        · rw [if_pos hr, if_pos hlog, if_pos (List.forall_mem_cons.mpr ⟨hr, hlog⟩)]
          rfl
        · rw [if_pos hr, if_neg hlog, if_neg fun h => hlog (List.forall_mem_cons.mp h).2]
          rfl
      · rw [if_neg hr, if_neg fun h => hr (List.forall_mem_cons.mp h).1]
        rfl
  rw [statedGoodput, hmapM]
  split_ifs with hall
  · rw [Option.map_some, Option.some.injEq, mean, List.length_map, and_iff_right hall]
  · exact iff_of_false (fun h => nomatch h) fun h => hall h.1

/-- Where all threads report a time, the two means agree exactly for threads that report the
same in each run. -/
theorem sum_goodputs_eq_iff (hthreads : 1 ≤ threads) (htimed : ∀ r ∈ log, r.Timed) {c : ℚ}
    (hc : c ≠ 0) :
    (log.map fun r => c / r.meanTime).sum =
        (log.map fun r => c * ((r.times.map fun x => 1 / x).sum / r.times.length)).sum ↔
      ∀ r ∈ log, ∀ result ∈ r.run.results, ∀ result' ∈ r.run.results,
        result.diff = result'.diff := by
  have hne (r : SendRun threads) : r.times ≠ [] := by
    refine List.ne_nil_of_length_pos ?_
    rw [r.length_times]
    omega
  simp only [SendRun.div_meanTime, List.sum_map_mul_left]
  rw [mul_right_inj' hc, sum_map_eq_iff_of_le fun r hr =>
    length_div_sum_le (htimed r hr).pos (hne r)]
  refine forall₂_congr fun r hr => (length_div_sum_eq_iff (htimed r hr).pos (hne r)).trans ?_
  simp only [SendRun.times, List.forall_mem_map, Nat.cast_inj]

/-- For every log of complete runs: the goodput of a single thread is the mean that is stated
exactly when every thread of a run reports the same time, and some time; for more than one
thread one of the reports has to show less than a minute, and some time.  For an empty file the
times may differ. -/
theorem parseSend_singleAsStated_iff (hthreads : 1 ≤ threads) (hlog : log ≠ [])
    (hcomplete : ∀ r ∈ log, r.run.leftOut = false) :
    SingleAsStated unit filesize log ↔
      (∀ r ∈ log, ∀ result ∈ r.run.results, result.diff ≠ 0) ∧
        (1 < threads → ∃ r ∈ log, r.minutes = 0 ∧ r.run.report.elapsed ≠ 0) ∧
        (filesize = 0 ∨ ∀ r ∈ log, ∀ result ∈ r.run.results, ∀ result' ∈ r.run.results,
          result.diff = result'.diff) := by
  have hread : readRuns log = log := List.filter_eq_self.mpr fun r hr => by simp [hcomplete r hr]
  have hloop := sendLoop_readRuns hthreads log
  rw [hread] at hloop
  have hlength : (log.length : ℚ) ≠ 0 :=
    Nat.cast_ne_zero.mpr (List.length_pos_of_ne_nil hlog).ne'
  have hthreads' : (threads : ℚ) ≠ 0 := Nat.cast_ne_zero.mpr (by omega)
  -- where all threads report a time, the mean is not zero
  have htimes : (∀ r ∈ log, r.Timed) → ∀ r ∈ log, r.meanTime ≠ 0 := by
    intro htimed r hr
    have hne : r.times ≠ [] := by
      refine List.ne_nil_of_length_pos ?_
      rw [r.length_times]
      omega
    have hsum := sum_ne_zero_of_pos (htimed r hr).pos hne
    exact div_ne_zero hsum hthreads'
  have hdivides : (∀ r ∈ log, r.Timed) → (Divides log.length threads (log.map SendRun.readEntry) ↔
      (1 < threads → ∃ r ∈ log, r.minutes = 0 ∧ r.run.report.elapsed ≠ 0)) := by
    intro htimed
    rw [← usedTotal_ne_zero_iff]
    exact ⟨fun h => h.total, fun h => ⟨(List.length_pos_of_ne_nil hlog).ne',
      List.forall_mem_map.mpr (htimes htimed), h⟩⟩
  have hequal (htimed : ∀ r ∈ log, r.Timed) :
      (log.map fun r => unitFactor unit * filesize *
          ((r.times.map fun x => 1 / x).sum / r.times.length)).sum / log.length =
        (sendValues log.length threads unit filesize (log.map SendRun.readEntry)).sgp ↔
      (filesize = 0 ∨ ∀ r ∈ log, ∀ result ∈ r.run.results, ∀ result' ∈ r.run.results,
        result.diff = result'.diff) := by
    have hsgp : (sendValues log.length threads unit filesize (log.map SendRun.readEntry)).sgp =
        (log.map fun r => unitFactor unit * filesize / r.meanTime).sum / log.length := by
      rw [sendValues, goodputTotal, List.map_map]
      rfl
    rw [hsgp, div_left_inj' hlength, eq_comm]
    by_cases hsize : filesize = 0
    · simp [hsize]
    · rw [sum_goodputs_eq_iff hthreads htimed (mul_ne_zero (unitFactor_ne_zero unit) hsize)]
      exact (or_iff_right hsize).symm
  constructor
  · rintro ⟨v, hv, hstated⟩
    obtain ⟨hdiv, rfl⟩ := (parseSend_eq_some_iff hloop).mp hv
    obtain ⟨htimed, hgp⟩ := statedGoodput_eq_some_iff.mp hstated
    exact ⟨htimed, (hdivides htimed).mp hdiv, (hequal htimed).mp hgp⟩
  · rintro ⟨htimed, hfound, hsame⟩
    refine ⟨_, parseSend_of_divides hloop ((hdivides htimed).mpr hfound), ?_⟩
    exact statedGoodput_eq_some_iff.mpr ⟨htimed, (hequal htimed).mpr hsame⟩

end Stated

/-! ## Two threads -/

/-- Two threads that both take two seconds. -/
theorem parseSend_singleAsStated_iff_even :
    (1 ≤ 2 ∧ [runOfTimes 2000 2000] ≠ [] ∧
      ∀ r ∈ [runOfTimes 2000 2000], r.run.leftOut = false) ∧
      SingleAsStated "MB" 1000000 [runOfTimes 2000 2000] := by
  have hcomplete : ∀ r ∈ [runOfTimes 2000 2000], r.run.leftOut = false := by
    intro r hr
    obtain rfl := List.mem_singleton.mp hr
    rfl
  refine ⟨⟨by decide, by simp, hcomplete⟩, ?_⟩
  refine (parseSend_singleAsStated_iff (by decide) (by simp) hcomplete).mpr ⟨?_, ?_, .inr ?_⟩
  · simp [runOfTimes]
  · exact fun _ => ⟨_, List.mem_singleton_self _, rfl, by decide⟩
  · simp [runOfTimes]

/-- One thread takes a second and the other three: half a megabyte a second is returned, and two
thirds are stated. -/
theorem parseSend_not_singleAsStated :
    (∃ v, parseSend 1 2 "MB" 1000000 (sendText [runOfTimes 1000 3000]) = some v ∧
      v.sgp = 1 / 2) ∧
      statedGoodput "MB" 1000000 [runOfTimes 1000 3000] = some (2 / 3) ∧
      ¬ SingleAsStated "MB" 1000000 [runOfTimes 1000 3000] := by
  have hunit : unitFactor "MB" = 1 / 1000 := rfl
  have htimes : (runOfTimes 1000 3000).times = [1000, 3000] := rfl
  have htimed : ∀ r ∈ [runOfTimes 1000 3000], r.Timed := by
    intro r hr
    obtain rfl := List.mem_singleton.mp hr
    simp [SendRun.Timed, runOfTimes]
  have hmean : (runOfTimes 1000 3000).meanTime = 2000 := by
    rw [SendRun.meanTime, sendTime]
    norm_num [runOfTimes]
  have hused : (runOfTimes 1000 3000).readEntry.used Usage.total = 310 / 100 := rfl
  have hstated : statedGoodput "MB" 1000000 [runOfTimes 1000 3000] = some (2 / 3) := by
    refine statedGoodput_eq_some_iff.mpr ⟨htimed, ?_⟩
    rw [List.map_singleton, List.sum_singleton, htimes, hunit]
    norm_num
  have hloop := sendLoop_readRuns (by decide) [runOfTimes 1000 3000]
  have hread : readRuns [runOfTimes 1000 3000] = [runOfTimes 1000 3000] := rfl
  rw [hread, List.map_singleton] at hloop
  have hdivides : Divides 1 2 [(runOfTimes 1000 3000).readEntry] := by
    refine ⟨by decide, ?_, fun _ => ?_⟩
    · intro e he
      obtain rfl := List.mem_singleton.mp he
      change (runOfTimes 1000 3000).meanTime ≠ 0
      rw [hmean]
      norm_num
    · rw [usedTotal, List.map_singleton, List.sum_singleton, hused]
      norm_num
  have hreturns := @parseSend_of_divides 1 2 "MB" 1000000 _ _ hloop hdivides
  have hsgp : (sendValues 1 2 "MB" 1000000 [(runOfTimes 1000 3000).readEntry]).sgp = 1 / 2 := by
    rw [sendValues, goodputTotal, List.map_singleton, List.sum_singleton, hunit]
    change 1 / 1000 * 1000000 / (runOfTimes 1000 3000).meanTime / ((1 : Nat) : ℚ) = 1 / 2
    rw [hmean]
    norm_num
  refine ⟨⟨_, hreturns, hsgp⟩, hstated, ?_⟩
  rintro ⟨v, hv, hgp⟩
  obtain rfl := Option.some.inj (hreturns.symm.trans hv)
  rw [hstated, hsgp] at hgp
  exact absurd (Option.some.inj hgp) (by norm_num)

end RtpBenchmarks.Results
