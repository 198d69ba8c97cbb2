import RtpBenchmarks.Results.SendLog

set_option autoImplicit false

/-!
# The two goodputs of `parse_send`

`parse_send` divides the amount of data by a time twice: for a single thread by what the
threads have measured, in milliseconds, and in total by what `time` has measured, in
seconds.  It returns the mean of the first over the runs, and the second for the mean time.

The runs are those of any log in which the threads and `time` agree on how long a run was.
-/

namespace RtpBenchmarks.Results

open RtpBenchmarks.Foundation

/-! ## The log -/

section Log

variable {threads : Nat}

/-- The elapsed time that is reported, in milliseconds. -/
def SendRun.ms (r : SendRun threads) : Nat :=
  r.run.report.reportedMs r.minutes

/-- All threads report the elapsed time. -/
def SendRun.Agrees (r : SendRun threads) : Prop :=
  ∀ result ∈ r.run.results, result.diff = r.ms

/-- The milliseconds of a run whose elapsed time is found in its report. -/
def SendRun.foundMs (r : SendRun threads) : Nat :=
  if r.minutes = 0 then r.ms else 0

/-- What is read of a run that is not left out. -/
def SendRun.entry (r : SendRun threads) : SendEntry where
  time := r.ms
  usage := if r.minutes = 0 then some r.run.report.usage else none

/-! ## What is read of it -/

/-- The time over threads that agree on it. -/
theorem SendRun.Agrees.sendTime {r : SendRun threads} (h : r.Agrees) :
    sendTime r.run.results = threads * r.ms := by
  have hconst : r.run.results.map (fun result => (result.diff : ℚ))
      = r.run.results.map fun _ => (r.ms : ℚ) :=
    List.map_congr_left fun result hresult => by rw [h result hresult]
  rw [Results.sendTime, hconst, List.map_const', List.sum_replicate, nsmul_eq_mul,
    r.run.length_results]

theorem SendRun.Agrees.readEntry {r : SendRun threads} (hthreads : 1 ≤ threads) (h : r.Agrees) :
    r.readEntry = r.entry := by
  have hne : (threads : ℚ) ≠ 0 := by
    have : threads ≠ 0 := by omega
    exact_mod_cast this
  rw [SendRun.readEntry, SendRun.meanTime, h.sendTime, mul_div_cancel_left₀ _ hne]
  rfl

/-- The loop reads the runs that are not left out. -/
theorem sendLoop_sendText (hthreads : 1 ≤ threads) {log : List (SendRun threads)}
    (hlog : ∀ r ∈ log, r.Agrees) :
    (sendLoop threads).run (textLines (sendText log)) =
      some ((readRuns log).map SendRun.entry) := by
  rw [sendLoop_readRuns hthreads]
  refine congrArg some (List.map_congr_left fun r hr => ?_)
  exact (hlog r (List.mem_of_mem_filter hr)).readEntry hthreads

end Log

/-! ## The two goodputs -/

section Goodputs

variable {threads : Nat}

/-- The milliseconds that are found in the reports of the runs. -/
def foundTotal (log : List (SendRun threads)) : ℚ :=
  ((readRuns log).map fun r => (r.foundMs : ℚ)).sum

/-- The sum of the reciprocals of the times of all runs that are read. -/
def reciprocalTotal (log : List (SendRun threads)) : ℚ :=
  ((readRuns log).map fun r => 1 / (r.ms : ℚ)).sum

/-- `parse_send` returns, and the total goodput is that of a single thread times the number
of threads. -/
def GoodputsAgree (threads : Nat) (values : Option SendValues) : Prop :=
  ∃ v, values = some v ∧ v.tgp = threads * v.sgp

/-- What is found in the report of a run counts in seconds. -/
theorem SendRun.used_total (r : SendRun threads) :
    r.entry.used Usage.total = (r.foundMs : ℚ) / 1000 := by
  unfold SendRun.entry SendRun.foundMs
  split_ifs with hminutes
  · have hms : r.ms = 10 * r.run.report.elapsed := by
      rw [SendRun.ms, TimeReport.reportedMs, hminutes, if_pos (by decide)]
      omega
    rw [hms]
    simp only [SendEntry.used, TimeReport.usage]
    push_cast
    ring
  · simp [SendEntry.used]

/-- What `parse_send` takes of the entries of a log. -/
theorem totals_of_entries (unit : String) (filesize : ℚ) (log : List (SendRun threads)) :
    goodputTotal unit filesize ((readRuns log).map SendRun.entry)
        = unitFactor unit * filesize * reciprocalTotal log ∧
      usedTotal ((readRuns log).map SendRun.entry) Usage.total = foundTotal log / 1000 := by
  constructor
  · simp only [goodputTotal, List.map_map, reciprocalTotal, ← List.sum_map_mul_left, mul_one_div]
    rfl
  · simp only [usedTotal, List.map_map, foundTotal, div_eq_mul_inv, ← List.sum_map_mul_right]
    refine congrArg List.sum (List.map_congr_left fun r _ => ?_)
    rw [Function.comp_apply, r.used_total, div_eq_mul_inv]

variable {iter : Nat} {log : List (SendRun threads)}

/-- Every run has taken time, and one of them less than a minute. -/
theorem divides_iff (hiter : iter ≠ 0) (hthreads : 2 ≤ threads) :
    Divides iter threads ((readRuns log).map SendRun.entry) ↔
      (∀ r ∈ readRuns log, r.ms ≠ 0) ∧ foundTotal log ≠ 0 := by
  have htotal := (totals_of_entries "" 0 log).2
  have htimes : (∀ e ∈ (readRuns log).map SendRun.entry, e.time ≠ 0) ↔
      ∀ r ∈ readRuns log, r.ms ≠ 0 := by
    rw [List.forall_mem_map]
    exact forall₂_congr fun r _ => Nat.cast_ne_zero
  have hfound : foundTotal log / 1000 ≠ 0 ↔ foundTotal log ≠ 0 := by
    rw [Ne, div_eq_zero_iff, or_iff_left (by norm_num)]
  rw [← htimes, ← hfound, ← htotal]
  constructor
  · exact fun h => ⟨h.times, h.total (by omega)⟩
  · exact fun h => ⟨hiter, h.1, fun _ => h.2⟩

/-- Where every run has taken time, and one of them less than a minute, `parse_send`
returns. -/
theorem parseSend_returns (hiter : iter ≠ 0) (hthreads : 2 ≤ threads) (unit : String)
    (filesize : ℚ) (hlog : ∀ r ∈ log, r.Agrees) (hms : ∀ r ∈ readRuns log, r.ms ≠ 0)
    (hfound : foundTotal log ≠ 0) :
    ∃ v, parseSend iter threads unit filesize (sendText log) = some v ∧
      v.sgp = unitFactor unit * filesize * reciprocalTotal log / iter ∧
      v.tgp = unitFactor unit * (filesize * threads) / (foundTotal log / 1000 / iter) := by
  have hdivides := (divides_iff hiter hthreads).mpr ⟨hms, hfound⟩
  obtain ⟨hsingle, htotal⟩ := totals_of_entries unit filesize log
  refine ⟨_, parseSend_of_divides (sendLoop_sendText (by omega) hlog) hdivides, ?_, ?_⟩
  · rw [sendValues, hsingle]
  · rw [sendValues, htotal, if_pos (show 1 < threads by omega)]

/-- Otherwise a division by zero ends it. -/
theorem parseSend_dies (hiter : iter ≠ 0) (hthreads : 2 ≤ threads) (unit : String)
    (filesize : ℚ) (hlog : ∀ r ∈ log, r.Agrees)
    (h : ¬ ((∀ r ∈ readRuns log, r.ms ≠ 0) ∧ foundTotal log ≠ 0)) :
    parseSend iter threads unit filesize (sendText log) = none :=
  parseSend_of_not_divides (sendLoop_sendText (by omega) hlog) fun hdivides =>
    h ((divides_iff hiter hthreads).mp hdivides)

/-- The two formulas agree where the file is empty, or where the unit of time and the two
ways to take a mean cancel out. -/
theorem formulas_agree_iff {unit : ℚ} (hunit : unit ≠ 0) (filesize : ℚ) {n t found : ℚ}
    (hn : n ≠ 0) (ht : t ≠ 0) (hfound : found ≠ 0) (reciprocals : ℚ) :
    unit * (filesize * t) / (found / 1000 / n) = t * (unit * filesize * reciprocals / n) ↔
      filesize = 0 ∨ 1000 * n ^ 2 = found * reciprocals := by
  have hleft : unit * (filesize * t) / (found / 1000 / n) =
      unit * t / (found * n) * (filesize * (1000 * n ^ 2)) := by
    field_simp
  have hright : t * (unit * filesize * reciprocals / n) =
      unit * t / (found * n) * (filesize * (found * reciprocals)) := by
    field_simp
  have hfactor : unit * t / (found * n) ≠ 0 :=
    div_ne_zero (mul_ne_zero hunit ht) (mul_ne_zero hfound hn)
  rw [hleft, hright, mul_right_inj' hfactor, mul_eq_mul_left_iff, or_comm]

/-- For every log whose threads and reports agree on the times: `parse_send` returns a total
goodput that is that of a single thread times the number of threads exactly when no run took
no time, one took less than a minute, and the file is empty or the times are such that the
unit of time and the two ways to take a mean cancel out. -/
theorem parseSend_goodputsAgree_iff (hiter : iter ≠ 0) (hthreads : 2 ≤ threads) (unit : String)
    (filesize : ℚ) (hlog : ∀ r ∈ log, r.Agrees) :
    GoodputsAgree threads (parseSend iter threads unit filesize (sendText log)) ↔
      (∀ r ∈ readRuns log, r.ms ≠ 0) ∧ foundTotal log ≠ 0 ∧
        (filesize = 0 ∨ 1000 * (iter : ℚ) ^ 2 = foundTotal log * reciprocalTotal log) := by
  have hn : (iter : ℚ) ≠ 0 := Nat.cast_ne_zero.mpr hiter
  have ht : (threads : ℚ) ≠ 0 := Nat.cast_ne_zero.mpr (by omega)
  rw [← and_assoc]
  by_cases hreturns : (∀ r ∈ readRuns log, r.ms ≠ 0) ∧ foundTotal log ≠ 0
  · obtain ⟨v, hv, hsgp, htgp⟩ :=
      parseSend_returns hiter hthreads unit filesize hlog hreturns.1 hreturns.2
    have hagree : GoodputsAgree threads (parseSend iter threads unit filesize (sendText log)) ↔
        v.tgp = threads * v.sgp := by
      simp only [GoodputsAgree, hv, Option.some.injEq, exists_eq_left']
    rw [hagree, hsgp, htgp, and_iff_right hreturns]
    exact formulas_agree_iff (unitFactor_ne_zero unit) filesize hn ht hreturns.2 _
  · have hdies := parseSend_dies hiter hthreads unit filesize hlog hreturns
    refine iff_of_false ?_ fun h => hreturns h.1
    rintro ⟨v, hv, -⟩
    rw [hdies] at hv
    cases hv

/-- Where all runs take the same time, less than a minute, the total goodput is a thousand
times that. -/
theorem parseSend_thousandfold (hthreads : 2 ≤ threads) (unit : String) (filesize : ℚ)
    (hlog : ∀ r ∈ log, r.Agrees) {d : Nat} (hd : d ≠ 0)
    (hequal : ∀ r ∈ readRuns log, r.ms = d ∧ r.minutes = 0) (hruns : readRuns log ≠ []) :
    ∃ v, parseSend (readRuns log).length threads unit filesize (sendText log) = some v ∧
      v.tgp = 1000 * (threads * v.sgp) := by
  have hlength : ((readRuns log).length : ℚ) ≠ 0 :=
    Nat.cast_ne_zero.mpr fun h => hruns (List.length_eq_zero_iff.mp h)
  have hdq : (d : ℚ) ≠ 0 := Nat.cast_ne_zero.mpr hd
  have hfound : foundTotal log = (readRuns log).length * d := by
    have hconst : (readRuns log).map (fun r => (r.foundMs : ℚ))
        = (readRuns log).map fun _ => (d : ℚ) :=
      List.map_congr_left fun r hr => by
        rw [SendRun.foundMs, if_pos (hequal r hr).2, (hequal r hr).1]
    rw [foundTotal, hconst, List.map_const', List.sum_replicate, nsmul_eq_mul]
  have hreciprocal : reciprocalTotal log = (readRuns log).length * (1 / d) := by
    have hconst : (readRuns log).map (fun r => 1 / (r.ms : ℚ))
        = (readRuns log).map fun _ => 1 / (d : ℚ) :=
      List.map_congr_left fun r hr => by rw [(hequal r hr).1]
    rw [reciprocalTotal, hconst, List.map_const', List.sum_replicate, nsmul_eq_mul]
  have hms : ∀ r ∈ readRuns log, r.ms ≠ 0 := fun r hr => (hequal r hr).1 ▸ hd
  obtain ⟨v, hv, hsgp, htgp⟩ := parseSend_returns (Nat.cast_ne_zero.mp hlength) hthreads unit
    filesize hlog hms (hfound ▸ mul_ne_zero hlength hdq)
  refine ⟨v, hv, ?_⟩
  rw [htgp, hsgp, hfound, hreciprocal]
  field_simp

/-! ## A log of one run -/

/-- Two threads that send a million bytes each in two seconds. -/
def runOfTwo : SendRun 2 where
  run :=
    { results := [⟨1000000, 2000⟩, ⟨1000000, 2000⟩]
      length_results := rfl
      command := none
      report :=
        { user := 10, system := 10, elapsed := 200, elapsed_lt := by decide, cpu := 20
          avgtext := 0, avgdata := 0, maxresident := 9000, inputs := 0, outputs := 0, major := 0
          minor := 0, swaps := 0 } }
  minutes := 0

theorem runOfTwo_agrees : ∀ r ∈ [runOfTwo], r.Agrees := by
  intro r hr
  obtain rfl := List.mem_singleton.mp hr
  simp [SendRun.Agrees, runOfTwo, SendRun.ms, TimeReport.reportedMs]

theorem runOfTwo_totals : (∀ r ∈ readRuns [runOfTwo], r.ms ≠ 0) ∧
    foundTotal [runOfTwo] = 2000 ∧ reciprocalTotal [runOfTwo] = 1 / 2000 := by
  have hread : readRuns [runOfTwo] = [runOfTwo] := rfl
  have hms : runOfTwo.ms = 2000 := rfl
  have hfound : runOfTwo.foundMs = 2000 := rfl
  simp [foundTotal, reciprocalTotal, hread, hms, hfound]

/-- The goodputs of an empty file agree, those of a million bytes do not. -/
theorem parseSend_goodputsAgree_iff_two : (1 : Nat) ≠ 0 ∧ 2 ≤ 2 ∧
    (∀ r ∈ [runOfTwo], r.Agrees) ∧
    GoodputsAgree 2 (parseSend 1 2 "MB" 0 (sendText [runOfTwo])) ∧
    ¬ GoodputsAgree 2 (parseSend 1 2 "MB" 1000000 (sendText [runOfTwo])) := by
  have hagrees (filesize : ℚ) := parseSend_goodputsAgree_iff Nat.one_ne_zero (Nat.le_refl 2) "MB"
    filesize runOfTwo_agrees
  obtain ⟨hms, hfound, hreciprocal⟩ := runOfTwo_totals
  refine ⟨by decide, by decide, runOfTwo_agrees, ?_, ?_⟩
  · rw [hagrees, hfound]
    exact ⟨hms, by norm_num, .inl rfl⟩
  · rw [hagrees, hfound, hreciprocal]
    norm_num

/-- A million bytes in two seconds: half a megabyte a second for each thread, and a thousand
in total. -/
theorem parseSend_runOfTwo : ∃ v,
    parseSend 1 2 "MB" 1000000 (sendText [runOfTwo]) = some v ∧ v.sgp = 1 / 2 ∧ v.tgp = 1000 ∧
      ¬ GoodputsAgree 2 (parseSend 1 2 "MB" 1000000 (sendText [runOfTwo])) := by
  obtain ⟨hms, hfound, hreciprocal⟩ := runOfTwo_totals
  have hne : foundTotal [runOfTwo] ≠ 0 := by
    rw [hfound]
    norm_num
  obtain ⟨v, hv, hsgp, htgp⟩ := parseSend_returns Nat.one_ne_zero (Nat.le_refl 2) "MB" 1000000
    runOfTwo_agrees hms hne
  have hunit : unitFactor "MB" = 1 / 1000 := rfl
  rw [hreciprocal, hunit] at hsgp
  rw [hfound, hunit] at htgp
  have hsingle : v.sgp = 1 / 2 := by
    rw [hsgp]
    norm_num
  have htotal : v.tgp = 1000 := by
    rw [htgp]
    norm_num
  refine ⟨v, hv, hsingle, htotal, ?_⟩
  rintro ⟨v', hv', hagree⟩
  obtain rfl := Option.some.inj (hv.symm.trans hv')
  rw [hsingle, htotal] at hagree
  exact absurd hagree (by norm_num)

end Goodputs

end RtpBenchmarks.Results
