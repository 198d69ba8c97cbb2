import Mathlib.Algebra.BigOperators.Ring.Finset
import RtpBenchmarks.Foundation.ReadLoop
import RtpBenchmarks.Results.Lines
import RtpBenchmarks.Results.LongTime
import RtpBenchmarks.Results.RunLog

set_option autoImplicit false

/-!
# Reading the results of a sender (`parse_send`)

`parse_send` looks for a line of `write_send_results_to_file` and reads one such line for each
thread.  A line about an interrupted program makes it look for the next run; other messages
are skipped.  Unlike `parse_recv` it does not check whether it has found the times.
-/

namespace RtpBenchmarks.Results

open RtpBenchmarks.Foundation

/-! ## The code -/

/-- `index ($line, "kB") == -1 or index ($line, "MB") == -1`. -/
def skippedBySend (line : List Char) : Bool :=
  !(Pattern.word "kB".toList).occursIn line || !(Pattern.word "MB".toList).occursIn line

/-- `terminated|corrupt`. -/
def interruptedPattern : Pattern :=
  .alt (.word "terminated".toList) (.word "corrupt".toList)

/-- `grep /terminated|corrupt/, $line`. -/
def interrupted (line : List Char) : Bool :=
  interruptedPattern.occursIn line

/-- The loop over the threads, from the current line on: `$rt_avg`, the line it stops at and
the lines that are left; no time where it goes on with the next run. -/
def sendThreads : Nat → ℚ → List Char → List (List Char) →
    Option ℚ × List Char × List (List Char)
  | 0, time, line, rest => (some time, line, rest)
  | threads + 1, time, line, rest =>
    if interrupted line then (none, line, rest)
    else
      let time := time + num line 3
      let (line, rest) := readLine rest
      sendThreads threads time line rest

/-- `flush|Command`. -/
def messagePattern : Pattern :=
  .alt (.word "flush".toList) (.word "Command".toList)

/-- What is read of a run.  The times may not have been found. -/
structure SendEntry where
  time : ℚ
  usage : Option Usage
  deriving DecidableEq

/-- The body of the loop over the lines, from a line that has been read: what it reads, if
anything, and the lines that are left; `none` where the program dies. -/
def sendRun (threads : Nat) (line : List Char) (rest : List (List Char)) :
    Option (Option SendEntry × List (List Char)) :=
  if skippedBySend line then some (none, rest)
  else
    match sendThreads threads 0 line rest with
    | (none, _, rest) => some (none, rest)
    | (some time, line, rest) =>
      -- the time is divided by the number of threads
      if threads = 0 then none
      else if interrupted line then some (none, rest)
      else
        let (line, rest) := skipMessage messagePattern line rest
        some (some { time := time / threads, usage := parseUsage line }, (readLine rest).2)

/-- The lines that are left are among those behind the line. -/
theorem sendThreads_suffix (threads : Nat) (time : ℚ) (line : List Char)
    (rest : List (List Char)) : (sendThreads threads time line rest).2.2 <:+ rest := by
  induction threads generalizing time line rest with
  | zero => exact List.suffix_refl rest
  | succ threads ih =>
    rw [sendThreads]
    split_ifs
    · exact List.suffix_refl rest
    · exact (ih _ _ _).trans (readLine_suffix rest)

/-- What the body reads comes from a line that is not skipped, and it only goes on. -/
theorem sendRun_cases {threads : Nat} {entry : Option SendEntry} {line : List Char}
    {rest rest' : List (List Char)} (h : sendRun threads line rest = some (entry, rest')) :
    rest' <:+ rest ∧ (entry = none ∨ skippedBySend line = false) := by
  unfold sendRun at h
  cases hskip : skippedBySend line with
  | true =>
    rw [hskip, if_pos rfl] at h
    cases h
    exact ⟨List.suffix_refl rest, .inl rfl⟩
  | false =>
    refine ⟨?_, .inr rfl⟩
    have hthreads := sendThreads_suffix threads 0 line rest
    rw [hskip, if_neg Bool.false_ne_true] at h
    generalize sendThreads threads 0 line rest = after at h hthreads
    obtain ⟨time, line', rest₁⟩ := after
    cases time with
    | none =>
      cases h
      exact hthreads
    | some time =>
      dsimp only at h hthreads
      split_ifs at h with hzero hstop
      · cases h
        exact hthreads
      · cases h
        exact (readLine_suffix _).trans ((skipMessage_suffix _ line' rest₁).trans hthreads)

/-- The loop over the lines. -/
def sendLoop (threads : Nat) : ReadLoop (List Char) SendEntry where
  body := sendRun threads
  length_le h := (sendRun_cases h).1.length_le

/-- What `parse_send` returns, without the path. -/
structure SendValues where
  usr : ℚ
  sys : ℚ
  cpu : ℚ
  total : ℚ
  sgp : ℚ
  tgp : ℚ
  deriving DecidableEq

/-- A time that has not been found counts as zero. -/
def SendEntry.used (e : SendEntry) (f : Usage → ℚ) : ℚ :=
  match e.usage with
  | none => 0
  | some usage => f usage

/-- `parse_send` on the text of the file; `none` where the program dies. -/
def parseSend (iter threads : Nat) (unit : String) (filesize : ℚ) (text : List Char) :
    Option SendValues := do
  let entries ← (sendLoop threads).run (textLines text)
  let goodputs ← entries.mapM fun e => goodput filesize e.time unit
  if iter = 0 then none
  else
    let total := (entries.map (·.used Usage.total)).sum
    let sgp := goodputs.sum / iter
    let tgp ← if 1 < threads then goodput (filesize * threads) (total / iter) unit else some sgp
    some
      { usr := (entries.map (·.used Usage.usr)).sum / iter
        sys := (entries.map (·.used Usage.sys)).sum / iter
        cpu := (entries.map (·.used Usage.cpu)).sum / iter / 100
        total := total / iter
        sgp
        tgp }

/-! ## Lines -/

/-- The line of a sender. -/
structure SendResult where
  bytes : Nat
  diff : Nat
  deriving DecidableEq, Repr

def SendResult.line (r : SendResult) : List Char :=
  writeSendResultsToFile r.bytes r.diff

theorem SendResult.line_eq (r : SendResult) :
    r.line = [decimal r.bytes, " bytes, ".toList, decimal (r.bytes / 1000), " kB, ".toList,
      decimal (r.bytes / 1000000), " MB took ".toList, decimal r.diff, " ms ".toList,
      decimal (r.diff / 1000), " s\n".toList].flatten := by
  simp [line, writeSendResultsToFile, sendFields, fieldsText]

theorem SendResult.isLine (r : SendResult) : IsLine r.line := by
  have hdecimal : ∀ n, '\n' ∉ decimal n := fun n => (isDigits_decimal n).not_mem rfl
  rw [r.line_eq]
  refine ⟨[decimal r.bytes, " bytes, ".toList, decimal (r.bytes / 1000), " kB, ".toList,
    decimal (r.bytes / 1000000), " MB took ".toList, decimal r.diff, " ms ".toList,
    decimal (r.diff / 1000), " s".toList].flatten, ?_, ?_⟩
  · simp
  · simp [hdecimal]

theorem SendResult.num_line (r : SendResult) : num r.line 3 = r.diff := by
  unfold num line
  rw [digitRuns_send]
  rfl

/-- A character that is neither a digit nor in the words of the line. -/
theorem SendResult.not_mem_line (r : SendResult) {c : Char} (hc : c.isDigit = false)
    (hwords : c ∉ " bytes, kB, MB took ms s\n".toList) : c ∉ r.line := by
  have hdecimal : ∀ n, c ∉ decimal n := fun n => (isDigits_decimal n).not_mem hc
  simp at hwords
  simp [r.line_eq, hdecimal, hwords]

theorem SendResult.not_point (r : SendResult) : '.' ∉ r.line :=
  r.not_mem_line rfl (by decide)

theorem SendResult.not_skipped (r : SendResult) : skippedBySend r.line = false := by
  obtain ⟨after, hkB⟩ : ∃ after, r.line =
      [decimal r.bytes, " bytes, ".toList, decimal (r.bytes / 1000), [' ']].flatten ++
        ("kB".toList ++ after) := by
    rw [r.line_eq]
    exact ⟨_, by simp; rfl⟩
  obtain ⟨after', hMB⟩ : ∃ after, r.line =
      [decimal r.bytes, " bytes, ".toList, decimal (r.bytes / 1000), " kB, ".toList,
        decimal (r.bytes / 1000000), [' ']].flatten ++ ("MB".toList ++ after) := by
    rw [r.line_eq]
    exact ⟨_, by simp; rfl⟩
  have hfirst : (Pattern.word "kB".toList).occursIn r.line = true := by
    rw [hkB]
    exact Pattern.occursIn_append _ (Pattern.occursIn_word_append _ _)
  have hsecond : (Pattern.word "MB".toList).occursIn r.line = true := by
    rw [hMB]
    exact Pattern.occursIn_append _ (Pattern.occursIn_word_append _ _)
  rw [skippedBySend, hfirst, hsecond]
  rfl

theorem SendResult.not_interrupted (r : SendResult) : interrupted r.line = false := by
  have hr : 'r' ∉ r.line := r.not_mem_line rfl (by decide)
  rw [interrupted, interruptedPattern, Pattern.occursIn_alt,
    Pattern.not_occursIn_word (by decide) hr, Pattern.not_occursIn_word (by decide) hr]
  rfl

theorem skippedBySend_of_not_mem {line : List Char} (h : 'B' ∉ line) :
    skippedBySend line = true := by
  rw [skippedBySend, Pattern.not_occursIn_word (c := 'B') (by decide) h]
  rfl

theorem TimeReport.skipped_lineWith (report : TimeReport) {elapsed : List Char}
    (h : IsElapsed elapsed) : skippedBySend (report.lineWith elapsed) = true :=
  skippedBySend_of_not_mem (report.not_mem_lineWith h rfl (by decide))

theorem TimeReport.skipped_pageLine (report : TimeReport) :
    skippedBySend report.pageLine = true :=
  skippedBySend_of_not_mem (report.not_mem_pageLine rfl (by decide))

theorem TimeReport.not_interrupted (report : TimeReport) {elapsed : List Char}
    (h : IsElapsed elapsed) : interrupted (report.lineWith elapsed) = false := by
  have ho : 'o' ∉ report.lineWith elapsed := report.not_mem_lineWith h rfl (by decide)
  rw [interrupted, interruptedPattern, Pattern.occursIn_alt,
    report.not_terminated_lineWith h, Pattern.not_occursIn_word (by decide) ho]
  rfl

theorem TimeReport.not_interrupted_pageLine (report : TimeReport) :
    interrupted report.pageLine = false := by
  have hd : 'd' ∉ report.pageLine := report.not_mem_pageLine rfl (by decide)
  have hc : 'c' ∉ report.pageLine := report.not_mem_pageLine rfl (by decide)
  rw [interrupted, interruptedPattern, Pattern.occursIn_alt,
    Pattern.not_occursIn_word (by decide) hd, Pattern.not_occursIn_word (by decide) hc]
  rfl

theorem TimeReport.not_message (report : TimeReport) {elapsed : List Char}
    (h : IsElapsed elapsed) : messagePattern.occursIn (report.lineWith elapsed) = false := by
  have hh : 'h' ∉ report.lineWith elapsed := report.not_mem_lineWith h rfl (by decide)
  have ho : 'o' ∉ report.lineWith elapsed := report.not_mem_lineWith h rfl (by decide)
  rw [messagePattern, Pattern.occursIn_alt, Pattern.not_occursIn_word (by decide) hh,
    Pattern.not_occursIn_word (by decide) ho]
  rfl

theorem message_commandLine (text : List Char) :
    messagePattern.occursIn (commandLine text) = true := by
  rw [messagePattern, Pattern.occursIn_alt, command_commandLine, Bool.or_true]

/-! ## What is read -/

section Read

variable {threads : Nat}

/-- The time of a run, over its threads. -/
def sendTime (results : List SendResult) : ℚ :=
  (results.map fun r => (r.diff : ℚ)).sum

/-- The loop over the threads takes the lines of a run and stops at the next one. -/
theorem sendThreads_results (results : List SendResult) (time : ℚ)
    (next : List (List Char)) :
    let first := readLine (results.map SendResult.line ++ next)
    sendThreads results.length time first.1 first.2 =
      (some (time + sendTime results), (readLine next).1, (readLine next).2) := by
  induction results generalizing time with
  | nil => simp [sendThreads, sendTime]
  | cons r results ih =>
    simp only [List.map_cons, List.cons_append, readLine, List.length_cons, sendThreads,
      r.not_interrupted, r.num_line]
    refine (ih _).trans ?_
    simp only [sendTime, List.map_cons, List.sum_cons, add_assoc]
    rfl

/-- A message about an interruption makes `parse_send` leave the run out. -/
def RunLog.leftOut (run : RunLog SendResult threads) : Bool :=
  match run.command with
  | none => false
  | some text => interrupted (commandLine text.val)

/-- What is to be read of a run. -/
def RunLog.sendEntry (run : RunLog SendResult threads) : Option SendEntry :=
  if run.leftOut then none
  else some { time := sendTime run.results / threads, usage := some run.report.usage }

/-- The lines of a run start with one that is not skipped, and the loop over the threads takes
them all. -/
theorem RunLog.exists_cons_results (hthreads : 1 ≤ threads) (run : RunLog SendResult threads)
    (next : List (List Char)) :
    ∃ first tail, run.results.map SendResult.line ++ next = first :: tail ∧
      skippedBySend first = false ∧
      sendThreads threads 0 first tail =
        (some (sendTime run.results), (readLine next).1, (readLine next).2) := by
  have hthread := sendThreads_results run.results 0 next
  rw [run.length_results, zero_add] at hthread
  have hlength := run.length_results
  cases hresults : run.results with
  | nil =>
    rw [hresults, List.length_nil] at hlength
    omega
  | cons r results =>
    rw [hresults] at hthread
    exact ⟨r.line, _, rfl, r.not_skipped, hthread⟩

/-- What is to be read of a run of which these times are found. -/
def RunLog.entryWith (run : RunLog SendResult threads) (usage : Option Usage) :
    Option SendEntry :=
  if run.leftOut then none else some { time := sendTime run.results / threads, usage }

theorem sendLoop_report (report : TimeReport) {elapsed : List Char} (h : IsElapsed elapsed)
    (rest : List (List Char)) :
    (sendLoop threads).run (report.lineWith elapsed :: report.pageLine :: rest) =
      (sendLoop threads).run rest := by
  have hskip {line : List Char} (rest : List (List Char)) (h : skippedBySend line = true) :
      (sendLoop threads).run (line :: rest) = (sendLoop threads).run rest := by
    have hbody : (sendLoop threads).body line rest = some (none, rest) := by
      simp only [sendLoop, sendRun, if_pos h]
    rw [ReadLoop.run_cons hbody]
    simp
  rw [hskip _ (report.skipped_lineWith h), hskip _ report.skipped_pageLine]

/-- The loop reads a run, or leaves it out, and goes on behind it; the times are those that
are found in the line of `time`. -/
theorem sendLoop_lineRun (hthreads : 1 ≤ threads) (run : RunLog SendResult threads)
    {elapsed : List Char} (h : IsElapsed elapsed) (rest : List (List Char)) :
    (sendLoop threads).run (run.results.map SendResult.line ++
        (run.message ++ run.report.lineWith elapsed :: run.report.pageLine :: rest)) =
      ((sendLoop threads).run rest).map
        ((run.entryWith (parseUsage (run.report.lineWith elapsed))).toList ++ ·) := by
  have hzero : threads ≠ 0 := by omega
  obtain ⟨first, tail, hcons, hskip, hthread⟩ := run.exists_cons_results hthreads
    (run.message ++ run.report.lineWith elapsed :: run.report.pageLine :: rest)
  rw [hcons]
  cases hcommand : run.command with
  | none =>
    have hbody : (sendLoop threads).body first tail =
        some (run.entryWith (parseUsage (run.report.lineWith elapsed)), rest) := by
      simp only [RunLog.message, hcommand, Option.map_none, Option.toList_none, List.nil_append,
        readLine] at hthread
      simp only [sendLoop, sendRun, hskip, hthread, run.report.not_interrupted h,
        if_neg hzero, skipMessage_of_not (run.report.not_message h)]
      simp [RunLog.entryWith, RunLog.leftOut, hcommand, readLine]
    exact ReadLoop.run_cons hbody
  | some text =>
    simp only [RunLog.message, hcommand, Option.map_some, Option.toList_some,
      List.singleton_append, readLine] at hthread
    cases hstop : interrupted (commandLine text.val) with
    | true =>
      have hbody : (sendLoop threads).body first tail =
          some (run.entryWith (parseUsage (run.report.lineWith elapsed)),
            run.report.lineWith elapsed :: run.report.pageLine :: rest) := by
        simp only [sendLoop, sendRun, hskip, hthread, hstop, if_neg hzero]
        simp [RunLog.entryWith, RunLog.leftOut, hcommand, hstop]
      rw [ReadLoop.run_cons hbody, sendLoop_report run.report h]
    | false =>
      have hbody : (sendLoop threads).body first tail =
          some (run.entryWith (parseUsage (run.report.lineWith elapsed)), rest) := by
        simp only [sendLoop, sendRun, hskip, hthread, hstop, if_neg hzero,
          skipMessage_cons (message_commandLine text.val)]
        simp [RunLog.entryWith, RunLog.leftOut, hcommand, hstop, readLine]
      exact ReadLoop.run_cons hbody

/-- The same for a run of any length. -/
theorem sendLoop_longRun (hthreads : 1 ≤ threads) (run : RunLog SendResult threads)
    (minutes : Nat) (rest : List (List Char)) :
    (sendLoop threads).run (run.results.map SendResult.line ++
        (run.message ++ run.report.longLine minutes :: run.report.pageLine :: rest)) =
      ((sendLoop threads).run rest).map
        ((run.entryWith (parseUsage (run.report.longLine minutes))).toList ++ ·) :=
  sendLoop_lineRun hthreads run (isElapsed_elapsedText minutes run.report.elapsed) rest

/-- A run of less than a minute. -/
theorem sendLoop_run (hthreads : 1 ≤ threads) (run : RunLog SendResult threads)
    (rest : List (List Char)) :
    (sendLoop threads).run (run.lines SendResult.line ++ rest) =
      ((sendLoop threads).run rest).map (run.sendEntry.toList ++ ·) := by
  have hrun := sendLoop_longRun hthreads run 0 rest
  rw [run.report.longLine_zero, run.report.parseUsage_timeLine] at hrun
  rw [run.lines_append]
  exact hrun

/-- The loop reads all runs that were not interrupted. -/
theorem sendLoop_lines (hthreads : 1 ≤ threads) (runs : List (RunLog SendResult threads)) :
    (sendLoop threads).run (runs.flatMap (RunLog.lines SendResult.line)) =
      some (runs.filterMap RunLog.sendEntry) :=
  ReadLoop.run_flatMap fun run _ rest => sendLoop_run hthreads run rest

end Read

/-! ## Times that are found -/

section Times

variable {threads : Nat} {entry : Option SendEntry} {line : List Char}
  {rest rest' : List (List Char)}

/-- The times of the run have been found. -/
def SendEntry.found (e : SendEntry) : Bool :=
  e.usage.isSome

/-- The times of a run are those of a line that the loop over the threads has left. -/
theorem sendRun_times (h : sendRun threads line rest = some (entry, rest'))
    (hskip : skippedBySend line = false) :
    let after := (sendThreads threads 0 line rest).2
    entry.toList.countP SendEntry.found + rest'.countP hasTimes ≤
      (after.1 :: after.2).countP hasTimes := by
  unfold sendRun at h
  rw [hskip, if_neg Bool.false_ne_true] at h
  generalize sendThreads threads 0 line rest = after at h
  obtain ⟨time, line', rest₁⟩ := after
  have hnone : rest₁.countP hasTimes ≤ (line' :: rest₁).countP hasTimes :=
    (List.sublist_cons_self line' rest₁).countP_le
  cases time with
  | none =>
    cases h
    simpa using hnone
  | some time =>
    dsimp only at h
    split_ifs at h with hzero hstop
    · cases h
      simpa using hnone
    · cases h
      have hskipped := countP_skipMessage_le messagePattern line' rest₁
      have hread := countP_readLine_le (skipMessage messagePattern line' rest₁).2
      rw [List.countP_cons] at hskipped
      refine Nat.le_trans ?_ hskipped
      rw [Option.toList_some, List.countP_singleton, Nat.add_comm]
      exact Nat.add_le_add_right hread _

theorem sendThreads_times (threads : Nat) (time : ℚ) (line : List Char)
    (rest : List (List Char)) :
    let after := (sendThreads threads time line rest).2
    (after.1 :: after.2).countP hasTimes ≤ (line :: rest).countP hasTimes := by
  induction threads generalizing time line rest with
  | zero => exact Nat.le_refl _
  | succ threads ih =>
    rw [sendThreads]
    split_ifs
    · exact Nat.le_refl _
    · exact Nat.le_trans (ih _ _ _) (Nat.le_trans (Nat.le_of_eq (countP_readLine rest))
        (List.sublist_cons_self line rest).countP_le)

/-- Without interruptions the loop over the threads stops as many lines further on. -/
theorem sendThreads_stops (threads : Nat) (time : ℚ)
    (h : ∀ l ∈ line :: rest, interrupted l = false) :
    (sendThreads threads time line rest).2 = readLine ((line :: rest).drop threads) := by
  induction threads generalizing time line rest with
  | zero => rfl
  | succ threads ih =>
    obtain ⟨hline, hrest⟩ := List.forall_mem_cons.mp h
    rw [sendThreads, hline, if_neg Bool.false_ne_true, ih, List.drop_succ_cons]
    · cases rest with
      | nil => cases threads <;> simp [readLine]
      | cons line' rest => rfl
    · cases rest with
      | nil => exact List.forall_mem_singleton.mpr rfl
      | cons line' rest => exact hrest

theorem sendLoop_times {lines : List (List Char)} {entries : List SendEntry}
    (h : (sendLoop threads).run lines = some entries) :
    entries.countP SendEntry.found ≤ lines.countP hasTimes := by
  refine ReadLoop.countP_run_le (fun {line rest rest' entry} hbody => ?_) h
  cases hskip : skippedBySend line with
  | true =>
    have hnone : sendRun threads line rest = some (none, rest) := by
      rw [sendRun, if_pos hskip]
    obtain ⟨rfl, rfl⟩ : none = entry ∧ rest = rest' := by
      simpa using hnone.symm.trans hbody
    simpa using (List.sublist_cons_self line rest).countP_le
  | false => exact Nat.le_trans (sendRun_times hbody hskip) (sendThreads_times ..)

theorem not_interrupted_lines {written : Nat} {runs : List (RunLog SendResult written)}
    (hmessage : ∀ run ∈ runs, run.message = []) :
    ∀ l ∈ runs.flatMap (RunLog.lines SendResult.line), interrupted l = false := by
  intro l hl
  obtain ⟨run, hrun, hmem⟩ := List.mem_flatMap.mp hl
  rw [RunLog.lines, hmessage run hrun, List.append_nil] at hmem
  simp only [List.mem_append, List.mem_map, List.mem_cons, List.not_mem_nil, or_false] at hmem
  rcases hmem with ⟨r, -, rfl⟩ | rfl | rfl
  · exact r.not_interrupted
  · rw [← run.report.longLine_zero]
    exact run.report.not_interrupted (isElapsed_elapsedText 0 run.report.elapsed)
  · exact run.report.not_interrupted_pageLine

/-- A file of runs with fewer lines than threads: the loop over the threads takes the times of
the first run, and so there are not enough for all runs. -/
theorem sendLoop_found_lt {written : Nat} (hpos : 1 ≤ written) (hlt : written < threads)
    {runs : List (RunLog SendResult written)} (hruns : runs ≠ [])
    (hmessage : ∀ run ∈ runs, run.message = []) {entries : List SendEntry}
    (h : (sendLoop threads).run (runs.flatMap (RunLog.lines SendResult.line)) = some entries) :
    entries.countP SendEntry.found < runs.length := by
  cases runs with
  | nil => exact absurd rfl hruns
  | cons run runs =>
    obtain ⟨hrun, hothers⟩ := List.forall_mem_cons.mp hmessage
    obtain ⟨first, tail, hcons, hskip, -⟩ := run.exists_cons_results hpos
      (run.report.timeLine :: run.report.pageLine :: runs.flatMap (RunLog.lines SendResult.line))
    have hclean := not_interrupted_lines hmessage
    rw [List.flatMap_cons, run.lines_append, hrun, List.nil_append, hcons] at hclean
    rw [List.flatMap_cons, run.lines_append, hrun, List.nil_append, hcons] at h
    obtain ⟨made, rest', es, hbody, hes, rfl⟩ := ReadLoop.exists_body_of_run h
    have hmade := sendRun_times hbody hskip
    rw [sendThreads_stops threads 0 hclean] at hmade
    dsimp only at hmade
    rw [countP_readLine, ← hcons] at hmade
    have hdrop := run.countP_drop_le SendResult.line hlt
      (runs.flatMap (RunLog.lines SendResult.line))
    rw [countP_lines SendResult.not_point hothers] at hdrop
    have hrest := sendLoop_times hes
    rw [List.countP_append, List.length_cons]
    omega

end Times

end RtpBenchmarks.Results
