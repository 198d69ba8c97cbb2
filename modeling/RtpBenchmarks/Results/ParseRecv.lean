import Mathlib.Algebra.BigOperators.Ring.Finset
import Mathlib.Tactic.Linarith
import RtpBenchmarks.Foundation.ReadLoop
import RtpBenchmarks.Results.Lines
import RtpBenchmarks.Results.LongTime
import RtpBenchmarks.Results.RunLog

set_option autoImplicit false

/-!
# Reading the results of a receiver (`parse_recv`)

For each run `parse_recv` reads a line for each thread, skips a line about a failed program if
there is one, finds the times in the next line and drops the one after it.
-/

namespace RtpBenchmarks.Results

open RtpBenchmarks.Foundation

/-! ## The code -/

/-- `get_frame_count`. -/
def getFrameCount (lib : String) : ℚ :=
  if lib = "uvgrtp" then 602 else if lib = "ffmpeg" then 598 else 601

/-- `$a_b`, `$a_f` and `$a_t`. -/
structure ThreadSums where
  bytes : ℚ := 0
  frames : ℚ := 0
  time : ℚ := 0
  deriving DecidableEq

/-- The loop over the threads, from the current line on: the sums, the line it stops at and
the lines that are left. -/
def recvThreads : Nat → ThreadSums → List Char → List (List Char) →
    ThreadSums × List Char × List (List Char)
  | 0, sums, line, rest => (sums, line, rest)
  | threads + 1, sums, line, rest =>
    let sums :=
      { bytes := sums.bytes + num line 0
        frames := sums.frames + num line 1
        time := sums.time + num line 2 }
    let (line, rest) := readLine rest
    recvThreads threads sums line rest

/-- `$line = <$fh> if grep /Command/, $line`. -/
def skipCommand (line : List Char) (rest : List (List Char)) : List Char × List (List Char) :=
  skipMessage (.word "Command".toList) line rest

/-- What is read of a run. -/
structure RecvEntry where
  sums : ThreadSums
  usage : Usage
  deriving DecidableEq

/-- The lines that are not results of a run, for ffmpeg. -/
def skippedByRecv (lib : String) (line : List Char) : Bool :=
  lib == "ffmpeg" &&
    ((digitRuns line).length != 3 || (Pattern.word "jitter".toList).occursIn line)

/-- The body of the loop over the lines, from a line that has been read: what it reads, if
anything, and the lines that are left; `none` where the program dies. -/
def recvRun (lib : String) (threads : Nat) (line : List Char) (rest : List (List Char)) :
    Option (Option RecvEntry × List (List Char)) :=
  if skippedByRecv lib line then some (none, rest)
  else
    let (sums, line, rest) := recvThreads threads {} line rest
    -- the sums are divided by the number of threads
    if threads = 0 then none
    else
      let (line, rest) := skipCommand line rest
      match parseUsage line with
      | none => none
      | some usage => some (some { sums, usage }, (readLine rest).2)

/-- The loop over the threads stops at the line that is as many lines further on. -/
theorem recvThreads_stops (threads : Nat) (sums : ThreadSums) (line : List Char)
    (rest : List (List Char)) :
    (recvThreads threads sums line rest).2 = readLine ((line :: rest).drop threads) := by
  induction threads generalizing sums line rest with
  | zero => rfl
  | succ threads ih =>
    rw [recvThreads, ih, List.drop_succ_cons]
    cases rest with
    | nil => cases threads <;> simp [readLine]
    | cons line' rest => rfl

theorem length_recvRun_le {lib : String} {threads : Nat} {entry : Option RecvEntry}
    {line : List Char} {rest rest' : List (List Char)}
    (h : recvRun lib threads line rest = some (entry, rest')) : rest'.length ≤ rest.length := by
  unfold recvRun at h
  split_ifs at h with hskip hzero
  · cases h
    exact Nat.le_refl _
  · have hstops := recvThreads_stops threads {} line rest
    generalize recvThreads threads {} line rest = after at h hstops
    obtain ⟨sums, line', rest₁⟩ := after
    have hrest : rest₁.length ≤ rest.length := by
      have hread := length_readLine_le ((line :: rest).drop threads)
      rw [← hstops, List.length_drop, List.length_cons] at hread
      dsimp only at hread
      omega
    have hcommand : (skipCommand line' rest₁).2.length ≤ rest₁.length :=
      (skipMessage_suffix _ _ _).length_le
    have hread := length_readLine_le (skipCommand line' rest₁).2
    dsimp only at h
    split at h
    · cases h
    · cases h
      omega

/-- The loop over the lines. -/
def recvLoop (lib : String) (threads : Nat) : ReadLoop (List Char) RecvEntry where
  body := recvRun lib threads
  length_le := length_recvRun_le

/-- The totals over the runs. -/
structure RecvTotals where
  usr : ℚ := 0
  sys : ℚ := 0
  cpu : ℚ := 0
  total : ℚ := 0
  frames : ℚ := 0
  bytes : ℚ := 0
  time : ℚ := 0
  deriving DecidableEq

/-- The updates for a run. -/
def RecvTotals.add (threads : Nat) (t : RecvTotals) (e : RecvEntry) : RecvTotals where
  usr := t.usr + e.usage.usr
  sys := t.sys + e.usage.sys
  cpu := t.cpu + e.usage.cpu
  total := t.total + e.usage.total
  frames := t.frames + e.sums.frames / threads
  bytes := t.bytes + e.sums.bytes / threads
  time := t.time + e.sums.time / threads

/-- What `parse_recv` returns, without the path. -/
structure RecvValues where
  usr : ℚ
  sys : ℚ
  cpu : ℚ
  total : ℚ
  frameLoss : ℚ
  bytes : ℚ
  goodput : ℚ
  deriving DecidableEq

/-- `parse_recv` on the text of the file; `none` where the program dies. -/
def parseRecv (lib : String) (iter threads : Nat) (unit : String) (filesize : ℚ)
    (text : List Char) : Option RecvValues := do
  let entries ← (recvLoop lib threads).run (textLines text)
  let t := entries.foldl (RecvTotals.add threads) {}
  if iter = 0 ∨ filesize = 0 then none
  else
    let bytes := t.bytes / iter / filesize
    let gp ← goodput (filesize * bytes) (t.time / iter) unit
    some
      { usr := t.usr / iter
        sys := t.sys / iter
        cpu := t.cpu / iter / 100
        total := t.total / iter
        frameLoss := 1 - t.frames / iter / getFrameCount lib
        bytes
        goodput := gp }

/-- Whether there is a line about a failure or not, the line with the times is reached. -/
theorem skipCommand_lineWith {α : Type} {threads : Nat} (run : RunLog α threads)
    {elapsed : List Char} (h : IsElapsed elapsed) (rest : List (List Char)) :
    let after := readLine (run.message ++ run.report.lineWith elapsed :: rest)
    skipCommand after.1 after.2 = (run.report.lineWith elapsed, rest) := by
  unfold RunLog.message
  cases run.command with
  | none =>
    have ho : 'o' ∉ run.report.lineWith elapsed := run.report.not_mem_lineWith h rfl (by decide)
    exact skipMessage_of_not (Pattern.not_occursIn_word (by decide) ho)
  | some text => exact skipMessage_cons (command_commandLine text.val)

/-- The line of a receiver. -/
structure ReceiveResult where
  bytes : Nat
  packets : Nat
  ms : Nat
  deriving DecidableEq, Repr

def ReceiveResult.line (r : ReceiveResult) : List Char :=
  writeReceiveResultsToFile r.bytes r.packets r.ms

theorem ReceiveResult.isLine (r : ReceiveResult) : IsLine r.line := by
  have hdecimal : ∀ n, '\n' ∉ decimal n := fun n => (isDigits_decimal n).not_mem rfl
  refine ⟨decimal r.bytes ++ [' '] ++ decimal r.packets ++ [' '] ++ decimal r.ms, ?_, ?_⟩
  · simp [line, writeReceiveResultsToFile, receiveFields, fieldsText]
  · simp [hdecimal]

theorem ReceiveResult.not_point (r : ReceiveResult) : '.' ∉ r.line := by
  have hdecimal : ∀ n, '.' ∉ decimal n := fun n => (isDigits_decimal n).not_mem rfl
  simp [line, writeReceiveResultsToFile, receiveFields, fieldsText, hdecimal]

theorem ReceiveResult.num_line (r : ReceiveResult) :
    num r.line 0 = r.bytes ∧ num r.line 1 = r.packets ∧ num r.line 2 = r.ms := by
  unfold num line
  rw [digitRuns_receive]
  exact ⟨rfl, rfl, rfl⟩

/-- The line has three numbers and no letter. -/
theorem ReceiveResult.not_skipped (r : ReceiveResult) (lib : String) :
    skippedByRecv lib r.line = false := by
  have hletter : 'j' ∉ r.line := by
    have hdecimal : ∀ n, 'j' ∉ decimal n := fun n => (isDigits_decimal n).not_mem rfl
    simp [line, writeReceiveResultsToFile, receiveFields, fieldsText, hdecimal]
  have hnums : (digitRuns r.line).length = 3 := by
    rw [line, digitRuns_receive]
    rfl
  rw [skippedByRecv, hnums, Pattern.not_occursIn_word (by decide) hletter]
  simp

/-! ## What is read -/

section Read

variable {threads : Nat}

/-- The sums over the lines of a run. -/
def threadSums (results : List ReceiveResult) : ThreadSums where
  bytes := (results.map fun r => (r.bytes : ℚ)).sum
  frames := (results.map fun r => (r.packets : ℚ)).sum
  time := (results.map fun r => (r.ms : ℚ)).sum

/-- The loop over the threads takes the lines of a run and stops at the next one. -/
theorem recvThreads_results (results : List ReceiveResult) (sums : ThreadSums)
    (next : List (List Char)) :
    let first := readLine (results.map ReceiveResult.line ++ next)
    recvThreads results.length sums first.1 first.2 =
      ({ bytes := sums.bytes + (threadSums results).bytes
         frames := sums.frames + (threadSums results).frames
         time := sums.time + (threadSums results).time },
        (readLine next).1, (readLine next).2) := by
  induction results generalizing sums with
  | nil => simp [recvThreads, threadSums]
  | cons r results ih =>
    obtain ⟨hbytes, hpackets, hms⟩ := r.num_line
    simp only [List.map_cons, List.cons_append, readLine, List.length_cons, recvThreads]
    refine (ih _).trans ?_
    simp only [hbytes, hpackets, hms, threadSums, List.map_cons, List.sum_cons, add_assoc]
    rfl

/-- What is to be read of a run. -/
def RunLog.recvEntry (run : RunLog ReceiveResult threads) : RecvEntry where
  sums := threadSums run.results
  usage := run.report.usage

/-- The body of the loop reads a run and stops behind it, or dies where the times are not
found. -/
theorem recvRun_lineRun {lib : String} (hthreads : 1 ≤ threads)
    (run : RunLog ReceiveResult threads) {elapsed : List Char} (h : IsElapsed elapsed)
    (rest : List (List Char)) :
    let first := readLine (run.results.map ReceiveResult.line ++
      (run.message ++ run.report.lineWith elapsed :: run.report.pageLine :: rest))
    skippedByRecv lib first.1 = false →
      recvRun lib threads first.1 first.2 =
        (parseUsage (run.report.lineWith elapsed)).map fun usage =>
          (some { sums := threadSums run.results, usage }, rest) := by
  intro first hskip
  have hsums := recvThreads_results run.results {}
    (run.message ++ run.report.lineWith elapsed :: run.report.pageLine :: rest)
  have hcommand := skipCommand_lineWith run h (run.report.pageLine :: rest)
  rw [run.length_results] at hsums
  unfold recvRun
  rw [hskip, if_neg Bool.false_ne_true, hsums]
  dsimp only at hcommand ⊢
  rw [if_neg (by omega), hcommand]
  dsimp only
  cases parseUsage (run.report.lineWith elapsed) with
  | none => rfl
  | some usage => simp [readLine]

/-- A run of less than a minute. -/
theorem recvRun_lines {lib : String} (hlib : lib ≠ "ffmpeg") (hthreads : 1 ≤ threads)
    (run : RunLog ReceiveResult threads) (rest : List (List Char)) :
    let first := readLine (run.lines ReceiveResult.line ++ rest)
    recvRun lib threads first.1 first.2 = some (some run.recvEntry, rest) := by
  intro first
  have hskip : skippedByRecv lib first.1 = false := by simp [skippedByRecv, hlib]
  have hline : run.report.timeLine =
      run.report.lineWith (elapsedText 0 run.report.elapsed) := run.report.longLine_zero.symm
  have hrun := @recvRun_lineRun threads lib hthreads run _
    (isElapsed_elapsedText 0 run.report.elapsed) rest
  rw [← hline, ← run.lines_append, run.report.parseUsage_timeLine] at hrun
  exact hrun hskip

/-- The loop reads all runs. -/
theorem recvLoop_lines {lib : String} (hlib : lib ≠ "ffmpeg") (hthreads : 1 ≤ threads)
    (runs : List (RunLog ReceiveResult threads)) :
    (recvLoop lib threads).run (runs.flatMap (RunLog.lines ReceiveResult.line)) =
      some (runs.map RunLog.recvEntry) := by
  rw [← List.filterMap_eq_map]
  refine ReadLoop.run_flatMap fun run _ rest => ?_
  obtain ⟨line, tail, hcons⟩ := run.exists_cons_lines ReceiveResult.line rest
  have hrun := recvRun_lines hlib hthreads run rest
  rw [hcons] at hrun ⊢
  exact ReadLoop.run_cons hrun

end Read

/-! ## Times that are found -/

section Times

variable {lib : String} {threads : Nat} {entry : Option RecvEntry} {line : List Char}
  {rest rest' : List (List Char)}

/-- The times of a run are those of a line behind the lines of its threads. -/
theorem recvRun_times (h : recvRun lib threads line rest = some (entry, rest'))
    (hskip : skippedByRecv lib line = false) :
    entry.toList.length + rest'.countP hasTimes ≤
      ((line :: rest).drop threads).countP hasTimes := by
  have hstops := recvThreads_stops threads {} line rest
  unfold recvRun at h
  rw [hskip, if_neg Bool.false_ne_true] at h
  generalize recvThreads threads {} line rest = after at h hstops
  obtain ⟨sums, line', rest₁⟩ := after
  have hskipped := countP_skipMessage_le (.word "Command".toList) line' rest₁
  have hread := countP_readLine_le (skipCommand line' rest₁).2
  dsimp only at h hstops
  rw [← countP_readLine ((line :: rest).drop threads), ← hstops]
  refine Nat.le_trans ?_ hskipped
  split_ifs at h with hzero
  split at h
  · cases h
  · rename_i usage husage
    cases h
    have htimes : hasTimes (skipCommand line' rest₁).1 = true := by
      rw [hasTimes, husage]
      rfl
    have hcons := List.countP_cons_of_pos (l := (skipCommand line' rest₁).2) htimes
    rw [Option.toList_some, List.length_singleton, Nat.add_comm]
    exact Nat.le_trans (Nat.add_le_add_right hread 1) (Nat.le_of_eq hcons.symm)

theorem recvLoop_times {lines : List (List Char)} {entries : List RecvEntry}
    (h : (recvLoop lib threads).run lines = some entries) :
    entries.length ≤ lines.countP hasTimes := by
  rw [← List.countP_true]
  refine ReadLoop.countP_run_le (fun {line rest rest' entry} hbody => ?_) h
  rw [List.countP_true]
  cases hskip : skippedByRecv lib line with
  | true =>
    have hnone : recvRun lib threads line rest = some (none, rest) := by
      rw [recvRun, if_pos hskip]
    obtain ⟨rfl, rfl⟩ : none = entry ∧ rest = rest' := by
      simpa using hnone.symm.trans hbody
    simpa using (List.sublist_cons_self line rest).countP_le
  | false =>
    exact Nat.le_trans (recvRun_times hbody hskip)
      (List.drop_suffix threads (line :: rest)).sublist.countP_le

/-- A file of runs with fewer lines than threads: the loop over the threads takes the times of
the first run, and so there are not enough for all runs. -/
theorem recvLoop_length_lt {written : Nat} (hlib : lib ≠ "ffmpeg") (hlt : written < threads)
    {runs : List (RunLog ReceiveResult written)} (hruns : runs ≠ [])
    (hmessage : ∀ run ∈ runs, run.message = []) {entries : List RecvEntry}
    (h : (recvLoop lib threads).run (runs.flatMap (RunLog.lines ReceiveResult.line)) =
      some entries) : entries.length < runs.length := by
  cases runs with
  | nil => exact absurd rfl hruns
  | cons run runs =>
    obtain ⟨hrun, hothers⟩ := List.forall_mem_cons.mp hmessage
    obtain ⟨first, tail, hcons⟩ := run.exists_cons_lines ReceiveResult.line
      (runs.flatMap (RunLog.lines ReceiveResult.line))
    have hskip : skippedByRecv lib first = false := by simp [skippedByRecv, hlib]
    rw [List.flatMap_cons, hcons] at h
    obtain ⟨made, rest', es, hbody, hes, rfl⟩ := ReadLoop.exists_body_of_run h
    have hmade := recvRun_times hbody hskip
    rw [← hcons, run.lines_append, hrun, List.nil_append] at hmade
    have hdrop := run.countP_drop_le ReceiveResult.line hlt
      (runs.flatMap (RunLog.lines ReceiveResult.line))
    rw [countP_lines ReceiveResult.not_point hothers] at hdrop
    have hrest := recvLoop_times hes
    rw [List.length_append, List.length_cons]
    omega

end Times

/-! ## Means -/

section Means

variable {threads : Nat}

/-- The mean over the threads of a run. -/
def RunLog.threadMean (run : RunLog ReceiveResult threads) (f : ReceiveResult → Nat) : ℚ :=
  mean (run.results.map fun r => (f r : ℚ))

/-- The totals after all runs. -/
theorem foldl_add (t : RecvTotals) (runs : List (RunLog ReceiveResult threads)) :
    (runs.map RunLog.recvEntry).foldl (RecvTotals.add threads) t =
      { usr := t.usr + (runs.map fun run => (run.report.user / 100 : ℚ)).sum
        sys := t.sys + (runs.map fun run => (run.report.system / 100 : ℚ)).sum
        cpu := t.cpu + (runs.map fun run => (run.report.cpu : ℚ)).sum
        total := t.total + (runs.map fun run => (run.report.elapsed / 100 : ℚ)).sum
        frames := t.frames + (runs.map fun run => run.threadMean (·.packets)).sum
        bytes := t.bytes + (runs.map fun run => run.threadMean (·.bytes)).sum
        time := t.time + (runs.map fun run => run.threadMean (·.ms)).sum } := by
  induction runs generalizing t with
  | nil => simp
  | cons run runs ih =>
    rw [List.map_cons, List.foldl_cons, ih]
    simp only [RecvTotals.add, RunLog.recvEntry, TimeReport.usage, threadSums, RunLog.threadMean,
      mean, List.map_cons, List.sum_cons, List.length_map, run.length_results, add_assoc]

theorem sum_threadMean (f : ReceiveResult → Nat) (runs : List (RunLog ReceiveResult threads)) :
    (runs.map fun run => run.threadMean f).sum =
      ((runs.map fun run => (run.results.map f).sum).sum : Nat) / threads := by
  induction runs with
  | nil => simp
  | cons run runs ih =>
    have hcast : (run.results.map fun r => (f r : ℚ)).sum = ((run.results.map f).sum : Nat) := by
      rw [Nat.cast_list_sum, List.map_map]
      rfl
    have hmean : run.threadMean f = ((run.results.map f).sum : Nat) / threads := by
      rw [RunLog.threadMean, mean, hcast, List.length_map, run.length_results]
    rw [List.map_cons, List.map_cons, List.sum_cons, List.sum_cons, ih, hmean, Nat.cast_add,
      add_div]

end Means

/-- The report of a program that runs for `n` hundredths of a second. -/
def plainReport (n : Nat) (h : n < 6000) : TimeReport where
  user := n
  system := 10
  elapsed := n
  elapsed_lt := h
  cpu := 90
  avgtext := 0
  avgdata := 0
  maxresident := 5432
  inputs := 0
  outputs := 8
  major := 0
  minor := 300
  swaps := 0

/-- Two runs of two threads, the second with a line about a failure. -/
def twoRuns : List (RunLog ReceiveResult 2) :=
  [{ results := [⟨1000, 602, 10⟩, ⟨900, 600, 12⟩], length_results := rfl, command := none
     report := plainReport 120 (by decide) },
   { results := [⟨1000, 602, 11⟩, ⟨1000, 602, 11⟩], length_results := rfl
     command := some ⟨" exited with non-zero status 1".toList, by decide⟩
     report := plainReport 140 (by decide) }]

end RtpBenchmarks.Results
