import RtpBenchmarks.Results.SendLog

set_option autoImplicit false

/-!
# Aborted runs of a sender (`parse_send`)

A line with `terminated` or `corrupt` makes `parse_send` leave the run out and look for the next
one.  The sums are then those of the complete runs, but they are divided by the number of rounds
that were started.

A run that is aborted has written some of its results, and `time` has written its report.
-/

namespace RtpBenchmarks.Results

open RtpBenchmarks.Foundation

/-! ## Logs with aborted runs -/

/-- What a line says that makes `parse_send` leave the run out. -/
abbrev StopText : Type :=
  { text : List Char // '\n' ∉ text ∧ interrupted (text ++ ['\n']) = true }

/-- A line of a program that is aborted: a result, or a line that says so. -/
inductive AbortedLine where
  | result (r : SendResult)
  | stop (text : StopText)

def AbortedLine.line : AbortedLine → List Char
  | result r => r.line
  | stop text => text.val ++ ['\n']

/-- A run with a line that says that it was aborted in front of the report. -/
structure AbortedRun where
  written : List AbortedLine
  stopped : ∃ text, AbortedLine.stop text ∈ written
  report : TimeReport
  minutes : Nat

def AbortedRun.lines (a : AbortedRun) : List (List Char) :=
  a.written.map AbortedLine.line ++ [a.report.longLine a.minutes, a.report.pageLine]

/-- A run that was started. -/
inductive Attempt (threads : Nat) where
  | complete (r : SendRun threads) (notLeftOut : r.run.leftOut = false)
  | aborted (a : AbortedRun)

section Log

variable {threads : Nat}

def Attempt.lines : Attempt threads → List (List Char)
  | complete r _ => r.lines
  | aborted a => a.lines

/-- The text of the log. -/
def attemptText (log : List (Attempt threads)) : List Char :=
  (log.flatMap Attempt.lines).flatten

/-- The run, if it is complete. -/
def Attempt.completed : Attempt threads → Option (SendRun threads)
  | complete r _ => some r
  | aborted _ => none

def completeRuns (log : List (Attempt threads)) : List (SendRun threads) :=
  log.filterMap Attempt.completed

/-! ## What should be returned -/

/-- The figures that `time` reports, with the elapsed time in seconds. -/
def SendRun.reported (r : SendRun threads) : Usage where
  usr := r.run.report.user / 100
  sys := r.run.report.system / 100
  total := r.run.report.reportedMs r.minutes / 1000
  cpu := r.run.report.cpu

/-- What there is to be read of a run. -/
def SendRun.fullEntry (r : SendRun threads) : SendEntry where
  time := r.meanTime
  usage := some r.reported

/-- The mean of a figure over some runs. -/
def meanOf (runs : List (SendRun threads)) (f : Usage → ℚ) : ℚ :=
  mean (runs.map fun r => f r.reported)

/-- The values are the means over these runs. -/
structure AreMeans (unit : String) (filesize : ℚ) (runs : List (SendRun threads))
    (v : SendValues) : Prop where
  usr : v.usr = meanOf runs Usage.usr
  sys : v.sys = meanOf runs Usage.sys
  cpu : v.cpu = meanOf runs Usage.cpu / 100
  total : v.total = meanOf runs Usage.total
  sgp : (runs.mapM fun r => goodput filesize r.meanTime unit).map mean = some v.sgp
  tgp : (if 1 < threads then goodput (filesize * threads) (meanOf runs Usage.total) unit
    else some v.sgp) = some v.tgp

/-- What is read of the log is what is in the complete runs, run by run, and the values that are
returned are the means over them. -/
def ReadsComplete (unit : String) (filesize : ℚ) (log : List (Attempt threads)) : Prop :=
  (sendLoop threads).run (textLines (attemptText log)) =
      some ((completeRuns log).map SendRun.fullEntry) ∧
    ∃ v, parseSend log.length threads unit filesize (attemptText log) = some v ∧
      AreMeans unit filesize (completeRuns log) v

/-! ## The lines -/

theorem AbortedLine.isLine (l : AbortedLine) : IsLine l.line := by
  cases l with
  | result r => exact r.isLine
  | stop text => exact isLine_append text.property.1

theorem Attempt.isLine_of_mem_lines (a : Attempt threads) {line : List Char}
    (h : line ∈ a.lines) : IsLine line := by
  cases a with
  | complete r _ => exact r.isLine_of_mem_lines h
  | aborted a =>
    simp only [Attempt.lines, AbortedRun.lines, List.mem_append, List.mem_map, List.mem_cons,
      List.not_mem_nil, or_false] at h
    rcases h with ⟨l, -, rfl⟩ | rfl | rfl
    · exact l.isLine
    · exact a.report.isLine_longLine a.minutes
    · exact a.report.isLine_pageLine

theorem textLines_attemptText (log : List (Attempt threads)) :
    textLines (attemptText log) = log.flatMap Attempt.lines := by
  refine textLines_flatten fun line hline => ?_
  obtain ⟨a, -, hmem⟩ := List.mem_flatMap.mp hline
  exact a.isLine_of_mem_lines hmem

/-- A log in which no run is aborted is one of complete runs. -/
theorem textLines_of_complete {log : List (Attempt threads)}
    (h : ∀ a ∈ log, a.completed.isSome = true) :
    textLines (attemptText log) = textLines (sendText (completeRuns log)) := by
  rw [textLines_attemptText, textLines_sendText]
  induction log with
  | nil => rfl
  | cons a log ih =>
    obtain ⟨ha, hlog⟩ := List.forall_mem_cons.mp h
    cases a with
    | complete r _ => rw [List.flatMap_cons, ih hlog]; rfl
    | aborted a => cases ha

theorem readRuns_completeRuns (log : List (Attempt threads)) :
    readRuns (completeRuns log) = completeRuns log := by
  refine List.filter_eq_self.mpr fun r hr => ?_
  obtain ⟨a, -, ha⟩ := List.mem_filterMap.mp hr
  cases a with
  | complete r' hleft =>
    obtain rfl := Option.some.inj ha
    rw [hleft]
    rfl
  | aborted a => cases ha

theorem length_completeRuns_eq_iff {log : List (Attempt threads)} :
    (completeRuns log).length = log.length ↔ ∀ a ∈ log, a.completed.isSome = true :=
  List.filterMap_length_eq_length

/-! ## Interrupted runs -/

/-- The loop over the threads stops at a line about an interruption, or in front of it. -/
theorem sendThreads_stop {stop : List Char} (hstop : interrupted stop = true)
    (rest : List (List Char)) (results : List SendResult) (more : Nat) (time : ℚ) :
    let first := readLine (results.map SendResult.line ++ stop :: rest)
    (sendThreads (results.length + more) time first.1 first.2).2 = (stop, rest) ∧
      (more ≠ 0 → (sendThreads (results.length + more) time first.1 first.2).1 = none) := by
  induction results generalizing time with
  | nil =>
    cases more with
    | zero => simp [sendThreads, readLine]
    | succ more =>
      simp only [List.map_nil, List.nil_append, readLine, List.length_nil]
      rw [Nat.zero_add, sendThreads, if_pos hstop]
      exact ⟨rfl, fun _ => rfl⟩
  | cons r results ih =>
    simp only [List.map_cons, List.cons_append, readLine, List.length_cons]
    rw [Nat.succ_add_eq_add_succ, Nat.add_succ, sendThreads, r.not_interrupted]
    exact ih _

/-- The results of an aborted run and the line that says so are passed over. -/
theorem sendLoop_stop {stop : List Char} (hstop : interrupted stop = true)
    {results : List SendResult} (hlength : results.length ≤ threads) (hthreads : 1 ≤ threads)
    (rest : List (List Char)) :
    (sendLoop threads).run (results.map SendResult.line ++ stop :: rest) =
      (sendLoop threads).run rest := by
  obtain ⟨more, rfl⟩ := Nat.exists_eq_add_of_le hlength
  obtain ⟨first, tail, hcons⟩ : ∃ first tail,
      results.map SendResult.line ++ stop :: rest = first :: tail :=
    List.exists_cons_of_ne_nil (by simp)
  have hthread := sendThreads_stop hstop rest results more 0
  rw [hcons] at hthread
  have hbody : (sendLoop (results.length + more)).body first tail = some (none, rest) := by
    change sendRun (results.length + more) first tail = some (none, rest)
    unfold sendRun
    cases hskip : skippedBySend first with
    | true =>
      -- only the line that says so can be skipped
      cases results with
      | nil =>
        obtain ⟨rfl, rfl⟩ := List.cons.inj hcons
        rfl
      | cons r results =>
        obtain ⟨rfl, -⟩ := List.cons.inj hcons
        rw [r.not_skipped] at hskip
        cases hskip
    | false =>
      rw [if_neg Bool.false_ne_true]
      obtain ⟨hrest, hnone⟩ := hthread
      dsimp only [readLine] at hrest hnone
      generalize sendThreads (results.length + more) 0 first tail = after at hrest hnone
      obtain ⟨time, line, left⟩ := after
      obtain ⟨rfl, rfl⟩ := Prod.mk.inj hrest
      cases time with
      | none => rfl
      | some time =>
        dsimp only
        rw [if_neg (by omega), if_pos hstop]
  rw [hcons, ReadLoop.run_cons hbody]
  simp

/-- A run that is aborted with the last line in front of its report. -/
def AbortedRun.EndsStopped (threads : Nat) (a : AbortedRun) : Prop :=
  ∃ (results : List SendResult) (text : StopText),
    results.length ≤ threads ∧ a.written = results.map .result ++ [.stop text]

/-- The lines of such a run are passed over. -/
theorem AbortedRun.EndsStopped.sendLoop_lines {a : AbortedRun} (h : a.EndsStopped threads)
    (hthreads : 1 ≤ threads) (rest : List (List Char)) :
    (sendLoop threads).run (a.lines ++ rest) = (sendLoop threads).run rest := by
  obtain ⟨results, text, hlength, hwritten⟩ := h
  have hlines : a.lines ++ rest = results.map SendResult.line ++ (text.val ++ ['\n']) ::
      (a.report.longLine a.minutes :: a.report.pageLine :: rest) := by
    rw [AbortedRun.lines, hwritten, List.map_append, List.map_map]
    simp [AbortedLine.line, Function.comp_def]
  rw [hlines, sendLoop_stop text.property.2 hlength hthreads]
  exact sendLoop_report a.report (isElapsed_elapsedText a.minutes a.report.elapsed) rest

/-- Where all aborted runs end so, the complete runs are read. -/
theorem sendLoop_attemptText (hthreads : 1 ≤ threads) {log : List (Attempt threads)}
    (h : ∀ a, .aborted a ∈ log → a.EndsStopped threads) :
    (sendLoop threads).run (textLines (attemptText log)) =
      some ((completeRuns log).map SendRun.readEntry) := by
  have hrun : ∀ a ∈ log, ∀ rest, (sendLoop threads).run (a.lines ++ rest) =
      ((sendLoop threads).run rest).map
        ((a.completed.map SendRun.readEntry).toList ++ ·) := by
    intro a ha rest
    cases a with
    | complete r hleft =>
      rw [Attempt.lines, r.sendLoop_lines hthreads, hleft]
      rfl
    | aborted a =>
      rw [Attempt.lines, (h a ha).sendLoop_lines hthreads]
      simp [Attempt.completed]
  rw [textLines_attemptText, ReadLoop.run_flatMap hrun, completeRuns, List.map_filterMap]

/-! ## The means -/

section Means

variable {unit : String} {filesize : ℚ} {log : List (Attempt threads)}

theorem usedTotal_fullEntry (runs : List (SendRun threads)) (f : Usage → ℚ) :
    usedTotal (runs.map SendRun.fullEntry) f / runs.length = meanOf runs f := by
  rw [usedTotal, List.map_map, meanOf, mean, List.length_map]
  rfl

/-- What is returned for all of some runs are the means over them. -/
theorem areMeans_sendValues {runs : List (SendRun threads)}
    (h : Divides runs.length threads (runs.map SendRun.fullEntry)) :
    AreMeans unit filesize runs
      (sendValues runs.length threads unit filesize (runs.map SendRun.fullEntry)) := by
  have htimes : ∀ r ∈ runs, r.meanTime ≠ 0 := fun r hr =>
    h.times r.fullEntry (List.mem_map_of_mem hr)
  have hused := usedTotal_fullEntry runs
  refine ⟨hused _, hused _, ?_, hused _, ?_, ?_⟩
  · exact congrArg (· / 100) (hused Usage.cpu)
  · rw [mapM_goodput, if_pos htimes, Option.map_some, mean, List.length_map, sendValues,
      goodputTotal, List.map_map]
    rfl
  · by_cases hthreads : 1 < threads
    · have hmean : meanOf runs Usage.total ≠ 0 := by
        rw [← hused]
        exact div_ne_zero (h.total hthreads) (Nat.cast_ne_zero.mpr h.rounds)
      rw [if_pos hthreads, goodput_eq, if_neg hmean, sendValues, ← hused]
      simp only [if_pos hthreads]
    · rw [if_neg hthreads, sendValues, if_neg hthreads]

/-- The goodput of a single thread is the mean over the complete runs only if no other run was
started. -/
theorem length_eq_of_sgp (hsize : filesize ≠ 0) {runs : List (SendRun threads)} (hne : runs ≠ [])
    {iter : Nat} (hdivides : Divides iter threads (runs.map SendRun.fullEntry))
    (hpos : ∀ r ∈ runs, 0 < r.meanTime)
    (hsgp : (runs.mapM fun r => goodput filesize r.meanTime unit).map mean =
      some (sendValues iter threads unit filesize (runs.map SendRun.fullEntry)).sgp) :
    runs.length = iter := by
  have htotal : goodputTotal unit filesize (runs.map SendRun.fullEntry) =
      (runs.map fun r => unitFactor unit * filesize / r.meanTime).sum := by
    rw [goodputTotal, List.map_map]
    rfl
  have hnonzero : goodputTotal unit filesize (runs.map SendRun.fullEntry) ≠ 0 :=
    goodputTotal_ne_zero unit hsize (by simpa using hne) (List.forall_mem_map.mpr hpos)
  have hlength : (runs.length : ℚ) ≠ 0 :=
    Nat.cast_ne_zero.mpr (List.length_pos_of_ne_nil hne).ne'
  have hiter : (iter : ℚ) ≠ 0 := Nat.cast_ne_zero.mpr hdivides.rounds
  rw [mapM_goodput, if_pos fun r hr => (hpos r hr).ne', Option.map_some, mean, List.length_map,
    Option.some.injEq, sendValues, htotal, div_eq_div_iff hlength hiter] at hsgp
  rw [htotal] at hnonzero
  exact (Nat.cast_inj.mp (mul_left_cancel₀ hnonzero hsgp)).symm

theorem SendRun.meanTime_nonneg (r : SendRun threads) : 0 ≤ r.meanTime :=
  div_nonneg (List.sum_nonneg (List.forall_mem_map.mpr fun _ _ => Nat.cast_nonneg _))
    (Nat.cast_nonneg _)

/-- What is found of a run is all there is exactly when it took less than a minute. -/
theorem SendRun.readEntry_eq_iff (r : SendRun threads) :
    r.readEntry = r.fullEntry ↔ r.minutes = 0 := by
  constructor
  · intro h
    have husage := congrArg SendEntry.usage h
    by_contra hminutes
    rw [SendRun.readEntry, if_neg hminutes] at husage
    cases husage
  · intro hminutes
    have htotal : (r.run.report.reportedMs r.minutes : ℚ) / 1000 = r.run.report.elapsed / 100 := by
      rw [hminutes, TimeReport.reportedMs, if_pos (by decide)]
      push_cast
      ring
    rw [SendRun.readEntry, SendRun.fullEntry, if_pos hminutes, TimeReport.usage,
      SendRun.reported, htotal]

/-- For every log with some complete run: what is returned are the means over the complete runs
exactly when no run was aborted, every run took less than a minute and has a thread that took
some time, and, for more than one thread, `time` reports some time for one of the runs. -/
theorem parseSend_readsComplete_iff (hthreads : 1 ≤ threads) (hsize : filesize ≠ 0)
    (hcomplete : completeRuns log ≠ []) :
    ReadsComplete unit filesize log ↔
      (∀ a ∈ log, a.completed.isSome = true) ∧
        (∀ r ∈ completeRuns log, r.minutes = 0 ∧ ∃ result ∈ r.run.results, result.diff ≠ 0) ∧
        (1 < threads → ∃ r ∈ completeRuns log, r.run.report.elapsed ≠ 0) := by
  -- where no run was aborted the log is read as one of complete runs
  have hloop (hall : ∀ a ∈ log, a.completed.isSome = true) :
      (sendLoop threads).run (textLines (attemptText log)) =
        some ((completeRuns log).map SendRun.readEntry) := by
    rw [textLines_of_complete hall, sendLoop_readRuns hthreads, readRuns_completeRuns]
  constructor
  · rintro ⟨hread, v, hv, hmeans⟩
    obtain ⟨hdivides, rfl⟩ := (parseSend_eq_some_iff hread).mp hv
    have hpos : ∀ r ∈ completeRuns log, 0 < r.meanTime := fun r hr =>
      lt_of_le_of_ne r.meanTime_nonneg (hdivides.times r.fullEntry (List.mem_map_of_mem hr)).symm
    have hall := length_completeRuns_eq_iff.mp
      (length_eq_of_sgp hsize hcomplete hdivides hpos hmeans.sgp)
    have hentries := List.map_inj_left.mp (Option.some.inj ((hloop hall).symm.trans hread))
    have hminutes : ∀ r ∈ completeRuns log, r.minutes = 0 := fun r hr =>
      r.readEntry_eq_iff.mp (hentries r hr)
    refine ⟨hall, fun r hr => ⟨hminutes r hr, ?_⟩, fun hmany => ?_⟩
    · exact (r.meanTime_pos_iff hthreads).mp (hpos r hr)
    · have htotal := hdivides.total hmany
      rw [← List.map_congr_left hentries, usedTotal_ne_zero_iff] at htotal
      obtain ⟨r, hr, -, helapsed⟩ := htotal
      exact ⟨r, hr, helapsed⟩
  · rintro ⟨hall, hruns, hmany⟩
    have hlength := length_completeRuns_eq_iff.mpr hall
    have hentries : (completeRuns log).map SendRun.readEntry =
        (completeRuns log).map SendRun.fullEntry :=
      List.map_congr_left fun r hr => r.readEntry_eq_iff.mpr (hruns r hr).1
    have hread := hloop hall
    have hdivides : Divides (completeRuns log).length threads
        ((completeRuns log).map SendRun.readEntry) := by
      refine ⟨(List.length_pos_of_ne_nil hcomplete).ne', ?_, fun h => ?_⟩
      · exact List.forall_mem_map.mpr fun r hr =>
          ((r.meanTime_pos_iff hthreads).mpr (hruns r hr).2).ne'
      · obtain ⟨r, hr, helapsed⟩ := hmany h
        exact (usedTotal_ne_zero_iff _).mpr ⟨r, hr, (hruns r hr).1, helapsed⟩
    rw [hentries] at hread hdivides
    refine ⟨hread, _, parseSend_of_divides hread (hlength ▸ hdivides), ?_⟩
    rw [← hlength]
    exact areMeans_sendValues hdivides

/-- Where all aborted runs end with the line that says so, the sums are those of the complete
runs, and the number of all runs divides them. -/
theorem parseSend_of_endsStopped (hthreads : 1 ≤ threads)
    (hstopped : ∀ a, .aborted a ∈ log → a.EndsStopped threads)
    (hdivides : Divides log.length threads ((completeRuns log).map SendRun.readEntry)) :
    parseSend log.length threads unit filesize (attemptText log) =
      some (sendValues log.length threads unit filesize
        ((completeRuns log).map SendRun.readEntry)) :=
  parseSend_of_divides (sendLoop_attemptText hthreads hstopped) hdivides

end Means

end Log

/-! ## A complete run and an aborted one -/

/-- "Command terminated by signal 15". -/
def terminatedText : StopText :=
  ⟨"Command terminated by signal 15".toList, by decide, by decide⟩

/-- One of two threads has written its result when the program is terminated. -/
def abortedRun : AbortedRun where
  written := [.result ⟨1000000, 1000⟩, .stop terminatedText]
  stopped := ⟨terminatedText, by simp⟩
  report := (runOfTimes 0 0).run.report
  minutes := 0

/-- A run of two threads. -/
def completeAttempt : Attempt 2 :=
  .complete (runOfTimes 2000 2000) rfl

/-- Without the aborted run the means are returned. -/
theorem parseSend_readsComplete_iff_one :
    (1 ≤ 2 ∧ (1000000 : ℚ) ≠ 0 ∧ completeRuns [completeAttempt] ≠ []) ∧
      ReadsComplete "MB" 1000000 [completeAttempt] := by
  have hruns : completeRuns [completeAttempt] = [runOfTimes 2000 2000] := rfl
  have hne : completeRuns [completeAttempt] ≠ [] := by simp [hruns]
  have hsize : (1000000 : ℚ) ≠ 0 := by norm_num
  refine ⟨⟨by decide, hsize, hne⟩, ?_⟩
  refine (parseSend_readsComplete_iff (by decide) hsize hne).mpr ⟨?_, ?_, ?_⟩
  · simp [completeAttempt, Attempt.completed]
  · rw [hruns]
    simp [runOfTimes]
  · rw [hruns]
    simp [runOfTimes]

/-- With it the times and the goodput are half of those of the complete run. -/
theorem parseSend_not_readsComplete :
    (∃ v, parseSend 2 2 "MB" 1000000 (attemptText [completeAttempt, .aborted abortedRun]) = some v ∧
      v.usr = 1 / 20 ∧ v.sgp = 1 / 4) ∧
      meanOf (completeRuns [completeAttempt, .aborted abortedRun]) Usage.usr = 1 / 10 ∧
      ¬ ReadsComplete "MB" 1000000 [completeAttempt, .aborted abortedRun] := by
  have hruns : completeRuns [completeAttempt, .aborted abortedRun] = [runOfTimes 2000 2000] := rfl
  have hstopped : ∀ a, .aborted a ∈ [completeAttempt, .aborted abortedRun] → a.EndsStopped 2 := by
    intro a ha
    obtain rfl : a = abortedRun := by simpa [completeAttempt] using ha
    exact ⟨[⟨1000000, 1000⟩], terminatedText, by decide, rfl⟩
  have htime : (runOfTimes 2000 2000).readEntry.time = 2000 := by
    change sendTime (runOfTimes 2000 2000).run.results / ((2 : Nat) : ℚ) = 2000
    rw [sendTime]
    norm_num [runOfTimes]
  have hdivides : Divides 2 2 [(runOfTimes 2000 2000).readEntry] := by
    refine ⟨by decide, ?_, fun _ => ?_⟩
    · intro e he
      obtain rfl := List.mem_singleton.mp he
      rw [htime]
      norm_num
    · exact (usedTotal_ne_zero_iff [runOfTimes 2000 2000]).mpr
        ⟨_, List.mem_singleton_self _, rfl, by decide⟩
  have hreturns := @parseSend_of_endsStopped 2 "MB" 1000000
    [completeAttempt, .aborted abortedRun] (by decide) hstopped
  rw [hruns] at hreturns
  have hvalues := hreturns hdivides
  have husr : (sendValues 2 2 "MB" 1000000 [(runOfTimes 2000 2000).readEntry]).usr = 1 / 20 := by
    rw [sendValues, usedTotal, List.map_singleton, List.sum_singleton]
    change ((10 : Nat) : ℚ) / 100 / ((2 : Nat) : ℚ) = 1 / 20
    norm_num
  have hsgp : (sendValues 2 2 "MB" 1000000 [(runOfTimes 2000 2000).readEntry]).sgp = 1 / 4 := by
    have hunit : unitFactor "MB" = 1 / 1000 := rfl
    rw [sendValues, goodputTotal, List.map_singleton, List.sum_singleton, htime, hunit]
    norm_num
  have hmean : meanOf (completeRuns [completeAttempt, .aborted abortedRun]) Usage.usr = 1 / 10 := by
    rw [hruns, meanOf, mean, List.map_singleton, List.sum_singleton]
    change ((10 : Nat) : ℚ) / 100 / ((1 : Nat) : ℚ) = 1 / 10
    norm_num
  refine ⟨⟨_, hvalues, husr, hsgp⟩, hmean, ?_⟩
  rintro ⟨-, v, hv, hmeans⟩
  obtain rfl := Option.some.inj (hvalues.symm.trans hv)
  have hwrong := husr.symm.trans (hmeans.usr.trans hmean)
  exact absurd hwrong (by norm_num)

end RtpBenchmarks.Results
