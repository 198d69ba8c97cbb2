import Mathlib.Tactic.NormNum
import RtpBenchmarks.Foundation.Means
import RtpBenchmarks.Results.ParseSend

set_option autoImplicit false

/-!
# Logs of a sender

A run of any length goes into the log of a sender with the lines of its threads and the report
of `time`.  `parse_send` reads the runs that are not left out; from what it has read it returns
sums that are divided by the number of rounds, unless a division by zero ends it.
-/

namespace RtpBenchmarks.Results

open RtpBenchmarks.Foundation
open RtpBenchmarks.Means

/-! ## The log -/

/-- A run that may have taken longer than a minute. -/
structure SendRun (threads : Nat) where
  run : RunLog SendResult threads
  minutes : Nat

section Log

variable {threads : Nat}

/-- The lines of a run. -/
def SendRun.lines (r : SendRun threads) : List (List Char) :=
  r.run.results.map SendResult.line ++ r.run.message ++
    [r.run.report.longLine r.minutes, r.run.report.pageLine]

/-- The text of the log. -/
def sendText (log : List (SendRun threads)) : List Char :=
  (log.flatMap SendRun.lines).flatten

/-- The runs that are not left out because they were interrupted. -/
def readRuns (log : List (SendRun threads)) : List (SendRun threads) :=
  log.filter fun r => !r.run.leftOut

/-- The mean over the threads of the time that they report. -/
def SendRun.meanTime (r : SendRun threads) : ℚ :=
  sendTime r.run.results / threads

/-- What is read of a run that is not left out. -/
def SendRun.readEntry (r : SendRun threads) : SendEntry where
  time := r.meanTime
  usage := if r.minutes = 0 then some r.run.report.usage else none

theorem SendRun.isLine_of_mem_lines (r : SendRun threads) {line : List Char}
    (h : line ∈ r.lines) : IsLine line := by
  simp only [SendRun.lines, RunLog.message, List.mem_append, List.mem_map, Option.mem_toList,
    List.mem_cons, Option.map_eq_some_iff, List.not_mem_nil, or_false] at h
  rcases h with (⟨result, -, rfl⟩ | ⟨text, -, rfl⟩) | rfl | rfl
  · exact result.isLine
  · exact isLine_commandLine text.property
  · exact r.run.report.isLine_longLine r.minutes
  · exact r.run.report.isLine_pageLine

theorem textLines_sendText (log : List (SendRun threads)) :
    textLines (sendText log) = log.flatMap SendRun.lines := by
  refine textLines_flatten fun line hline => ?_
  obtain ⟨r, -, hmem⟩ := List.mem_flatMap.mp hline
  exact r.isLine_of_mem_lines hmem

theorem SendRun.parseUsage_longLine (r : SendRun threads) :
    parseUsage (r.run.report.longLine r.minutes) = r.readEntry.usage := by
  unfold SendRun.readEntry
  split_ifs with hminutes
  · rw [hminutes, r.run.report.longLine_zero, r.run.report.parseUsage_timeLine]
  · exact r.run.report.parseUsage_longLine (Nat.pos_of_ne_zero hminutes)

/-- The loop reads a run, or leaves it out, and goes on behind it. -/
theorem SendRun.sendLoop_lines (hthreads : 1 ≤ threads) (r : SendRun threads)
    (rest : List (List Char)) :
    (sendLoop threads).run (r.lines ++ rest) = ((sendLoop threads).run rest).map
      ((if r.run.leftOut then none else some r.readEntry).toList ++ ·) := by
  have hrun := sendLoop_longRun hthreads r.run r.minutes rest
  rw [r.parseUsage_longLine] at hrun
  rw [SendRun.lines, List.append_assoc, List.append_assoc]
  exact hrun

/-- The loop reads the runs that are not left out. -/
theorem sendLoop_readRuns (hthreads : 1 ≤ threads) (log : List (SendRun threads)) :
    (sendLoop threads).run (textLines (sendText log)) =
      some ((readRuns log).map SendRun.readEntry) := by
  rw [textLines_sendText, ReadLoop.run_flatMap fun r _ => r.sendLoop_lines hthreads]
  simp only [readRuns, ← List.filterMap_eq_filter, List.map_filterMap]
  refine congrArg some (List.filterMap_congr fun r _ => ?_)
  cases hleft : r.run.leftOut with
  | true => simp [hleft]
  | false => simp [hleft]

end Log

/-! ## The formulas -/

/-- What an amount is multiplied with for a unit. -/
def unitFactor (unit : String) : ℚ :=
  if unit = "mbit" ∨ unit = "Mbit" then 8 / 1000
  else if unit = "mb" ∨ unit = "MB" then 1 / 1000
  else 8 / 1000000

theorem unitFactor_pos (unit : String) : 0 < unitFactor unit := by
  unfold unitFactor
  split_ifs <;> norm_num

theorem unitFactor_ne_zero (unit : String) : unitFactor unit ≠ 0 :=
  (unitFactor_pos unit).ne'

/-- All units divide by the time, and die at zero. -/
theorem goodput_eq (amount time : ℚ) (unit : String) :
    goodput amount time unit =
      if time = 0 then none else some (unitFactor unit * amount / time) := by
  unfold goodput unitFactor
  split_ifs
  · rfl
  · congr 1
    ring
  · congr 1
    ring
  · congr 1
    ring

/-- The goodputs for some times, where none of them is zero. -/
theorem mapM_goodput {α : Type} (filesize : ℚ) (unit : String) (time : α → ℚ) (xs : List α) :
    xs.mapM (fun x => goodput filesize (time x) unit) =
      if ∀ x ∈ xs, time x ≠ 0 then some (xs.map fun x => unitFactor unit * filesize / time x)
      else none := by
  induction xs with
  | nil => simp
  | cons x xs ih =>
    rw [List.mapM_cons, ih, goodput_eq]
    by_cases hx : time x = 0
    · simp [hx]
    · by_cases hall : ∀ x ∈ xs, time x ≠ 0
      · have hboth : ∀ y ∈ x :: xs, time y ≠ 0 := List.forall_mem_cons.mpr ⟨hx, hall⟩
        rw [if_neg hx, if_pos hall, if_pos hboth]
        rfl
      · rw [if_neg hx, if_neg hall, if_neg fun h => hall (List.forall_mem_cons.mp h).2]
        rfl

/-! ## What is returned -/

/-- The sum of a figure over what has been read. -/
def usedTotal (entries : List SendEntry) (f : Usage → ℚ) : ℚ :=
  (entries.map (·.used f)).sum

/-- The sum of the goodputs of what has been read. -/
def goodputTotal (unit : String) (filesize : ℚ) (entries : List SendEntry) : ℚ :=
  (entries.map fun e => unitFactor unit * filesize / e.time).sum

/-- An elapsed time is found if one of the runs took less than a minute, and some time. -/
theorem usedTotal_ne_zero_iff {threads : Nat} (runs : List (SendRun threads)) :
    usedTotal (runs.map SendRun.readEntry) Usage.total ≠ 0 ↔
      ∃ r ∈ runs, r.minutes = 0 ∧ r.run.report.elapsed ≠ 0 := by
  have hused (r : SendRun threads) : r.readEntry.used Usage.total =
      if r.minutes = 0 then (r.run.report.elapsed : ℚ) / 100 else 0 := by
    unfold SendRun.readEntry
    split_ifs <;> rfl
  have hnonneg : ∀ r ∈ runs, 0 ≤ r.readEntry.used Usage.total := by
    intro r _
    rw [hused]
    split_ifs
    · positivity
    · exact le_refl 0
  have hzero := sum_map_eq_iff_of_le (f := fun _ => (0 : ℚ)) hnonneg
  rw [List.map_const', List.sum_replicate, nsmul_zero, eq_comm] at hzero
  rw [usedTotal, List.map_map, Ne, Function.comp_def, hzero]
  push Not
  refine exists_congr fun r => and_congr_right fun _ => ?_
  rw [hused, ne_comm]
  split_ifs with hminutes <;> simp [hminutes]

/-- A time is found where one of the threads reports some. -/
theorem SendRun.meanTime_pos_iff {threads : Nat} (hthreads : 1 ≤ threads) (r : SendRun threads) :
    0 < r.meanTime ↔ ∃ result ∈ r.run.results, result.diff ≠ 0 := by
  have hnonneg : ∀ result ∈ r.run.results, (0 : ℚ) ≤ (result.diff : ℚ) :=
    fun result _ => Nat.cast_nonneg result.diff
  have hzero := sum_map_eq_iff_of_le (f := fun _ => (0 : ℚ)) hnonneg
  rw [List.map_const', List.sum_replicate, nsmul_zero] at hzero
  have hsum : 0 ≤ sendTime r.run.results :=
    List.sum_nonneg (List.forall_mem_map.mpr hnonneg)
  have hpos : (0 : ℚ) < threads := Nat.cast_pos.mpr hthreads
  rw [SendRun.meanTime, div_pos_iff_of_pos_right hpos, hsum.lt_iff_ne, Ne, sendTime, hzero]
  push Not
  exact exists_congr fun result => and_congr_right fun _ => ne_comm.trans Nat.cast_ne_zero

/-- No division by zero ends `parse_send`. -/
structure Divides (iter threads : Nat) (entries : List SendEntry) : Prop where
  rounds : iter ≠ 0
  times : ∀ e ∈ entries, e.time ≠ 0
  total : 1 < threads → usedTotal entries Usage.total ≠ 0

/-- What `parse_send` returns for what it has read. -/
def sendValues (iter threads : Nat) (unit : String) (filesize : ℚ) (entries : List SendEntry) :
    SendValues where
  usr := usedTotal entries Usage.usr / iter
  sys := usedTotal entries Usage.sys / iter
  cpu := usedTotal entries Usage.cpu / iter / 100
  total := usedTotal entries Usage.total / iter
  sgp := goodputTotal unit filesize entries / iter
  tgp := if 1 < threads then
      unitFactor unit * (filesize * threads) / (usedTotal entries Usage.total / iter)
    else goodputTotal unit filesize entries / iter

theorem goodputTotal_ne_zero (unit : String) {filesize : ℚ} (hsize : filesize ≠ 0)
    {entries : List SendEntry} (hne : entries ≠ []) (hpos : ∀ e ∈ entries, 0 < e.time) :
    goodputTotal unit filesize entries ≠ 0 := by
  have hsum : (entries.map fun e => 1 / e.time).sum ≠ 0 :=
    sum_ne_zero_of_pos (List.forall_mem_map.mpr fun e he => one_div_pos.mpr (hpos e he))
      (by simpa using hne)
  have hfactor : goodputTotal unit filesize entries =
      unitFactor unit * filesize * (entries.map fun e => 1 / e.time).sum := by
    rw [goodputTotal, ← List.sum_map_mul_left]
    simp only [mul_one_div]
  rw [hfactor]
  exact mul_ne_zero (mul_ne_zero (unitFactor_ne_zero unit) hsize) hsum

section Returned

variable {iter threads : Nat} {unit : String} {filesize : ℚ} {text : List Char}
  {entries : List SendEntry}

theorem parseSend_of_divides (hloop : (sendLoop threads).run (textLines text) = some entries)
    (h : Divides iter threads entries) :
    parseSend iter threads unit filesize text =
      some (sendValues iter threads unit filesize entries) := by
  unfold parseSend sendValues
  simp only [hloop, mapM_goodput, if_pos h.times, if_neg h.rounds, bind, Option.bind_some]
  by_cases hthreads : 1 < threads
  · have hmean : usedTotal entries Usage.total / iter ≠ 0 :=
      div_ne_zero (h.total hthreads) (Nat.cast_ne_zero.mpr h.rounds)
    have hgoodput := goodput_eq (filesize * threads) (usedTotal entries Usage.total / iter) unit
    rw [if_neg hmean] at hgoodput
    simp only [if_pos hthreads]
    exact congrArg (Option.bind · _) hgoodput
  · simp only [if_neg hthreads]
    rfl

theorem parseSend_of_not_divides (hloop : (sendLoop threads).run (textLines text) = some entries)
    (h : ¬ Divides iter threads entries) :
    parseSend iter threads unit filesize text = none := by
  unfold parseSend
  simp only [hloop, mapM_goodput, bind, Option.bind_some]
  by_cases htimes : ∀ e ∈ entries, e.time ≠ 0
  · by_cases hiter : iter = 0
    · simp only [if_pos htimes, if_pos hiter, Option.bind_some]
    · have htotal : 1 < threads ∧ usedTotal entries Usage.total = 0 := by
        by_contra hnot
        exact h ⟨hiter, htimes, fun hthreads hzero => hnot ⟨hthreads, hzero⟩⟩
      have hgoodput : goodput (filesize * threads) (usedTotal entries Usage.total / iter) unit =
          none := by
        rw [goodput_eq, htotal.2, zero_div, if_pos rfl]
      simp only [if_pos htimes, if_neg hiter, if_pos htotal.1, Option.bind_some]
      exact congrArg (Option.bind · _) hgoodput
  · rw [if_neg htimes, Option.bind_none]

/-- `parse_send` returns where no division by zero ends it. -/
theorem parseSend_eq_some_iff (hloop : (sendLoop threads).run (textLines text) = some entries)
    {v : SendValues} :
    parseSend iter threads unit filesize text = some v ↔
      Divides iter threads entries ∧ v = sendValues iter threads unit filesize entries := by
  by_cases h : Divides iter threads entries
  · rw [parseSend_of_divides hloop h, Option.some.injEq, and_iff_right h, eq_comm]
  · rw [parseSend_of_not_divides hloop h]
    exact iff_of_false (fun hnone => nomatch hnone) fun hboth => h hboth.1

end Returned

/-! ## Two threads -/

/-- A run of two threads that report these times. -/
def runOfTimes (first second : Nat) : SendRun 2 where
  run :=
    { results := [⟨1000000, first⟩, ⟨1000000, second⟩]
      length_results := rfl
      command := none
      report :=
        { user := 10, system := 10, elapsed := 310, elapsed_lt := by decide, cpu := 20
          avgtext := 0, avgdata := 0, maxresident := 9000, inputs := 0, outputs := 0, major := 0
          minor := 0, swaps := 0 } }
  minutes := 0

end RtpBenchmarks.Results
