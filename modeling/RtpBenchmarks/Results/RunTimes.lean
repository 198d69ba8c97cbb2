import RtpBenchmarks.Results.ParseRecv
import RtpBenchmarks.Results.ParseSend

set_option autoImplicit false

/-!
# Run times

The pattern of `parse_send` and of `parse_recv` finds all four figures of a report or none of
them.  It asks for an elapsed time of no minutes, so both read the reports of exactly the runs
that took less than a minute.  Of a longer run `parse_send` keeps the goodput without the other
figures; `parse_recv` dies.
-/

namespace RtpBenchmarks.Results

open RtpBenchmarks.Foundation

/-! ## How an elapsed time is written -/

/-- A format for whole minutes and hundredths of a second behind them, and the number of
seconds that it shows. -/
structure ElapsedFormat where
  text : Nat → Nat → List Char
  seconds : Nat → Nat → ℚ
  isElapsed : ∀ minutes n, IsElapsed (text minutes n)
  text_zero : ∀ n, text 0 n = "0:".toList ++ elapsedSeconds n
  seconds_zero : ∀ n, seconds 0 n = n / 100
  text_pos : ∀ {minutes : Nat} (n : Nat), 1 ≤ minutes →
    ∃ k rest, k ≠ 0 ∧ text minutes n = decimal k ++ ':' :: rest

/-- `[h:]m:ss.cc`. -/
def hourText (minutes n : Nat) : List Char :=
  if minutes < 60 then decimal minutes ++ ":".toList ++ elapsedSeconds n
  else
    decimal (minutes / 60) ++ ":".toList ++
      (padded 2 (minutes % 60) ++ ":".toList ++ elapsedSeconds n)

theorem isElapsed_hourText (minutes n : Nat) : IsElapsed (hourText minutes n) := by
  have hcolon : IsElapsed ":".toList := by simp [IsElapsed]
  have hdecimal (n : Nat) : IsElapsed (decimal n) := isElapsed_digits (isDigits_decimal n)
  have hpadded (n : Nat) : IsElapsed (padded 2 n) := isElapsed_digits (isDigits_padded 2 n)
  have hseconds := isElapsed_elapsedSeconds n
  unfold hourText
  split_ifs
  · exact ((hdecimal _).append hcolon).append hseconds
  · exact ((hdecimal _).append hcolon).append (((hpadded _).append hcolon).append hseconds)

theorem exists_hourText {minutes : Nat} (n : Nat) (h : 1 ≤ minutes) :
    ∃ k rest, k ≠ 0 ∧ hourText minutes n = decimal k ++ ':' :: rest := by
  unfold hourText
  split_ifs with hhour
  · exact ⟨minutes, elapsedSeconds n, by omega, by simp⟩
  · exact ⟨minutes / 60, padded 2 (minutes % 60) ++ ":".toList ++ elapsedSeconds n, by omega,
      by simp⟩

/-- Hundredths of a second at all times. -/
def ElapsedFormat.withHundredths : ElapsedFormat where
  text := hourText
  seconds minutes n := 60 * minutes + n / 100
  isElapsed := isElapsed_hourText
  text_zero _ := rfl
  seconds_zero n := by simp
  text_pos := exists_hourText

/-- Whole seconds from an hour on, as `time` has it. -/
def ElapsedFormat.ofTime : ElapsedFormat where
  text := elapsedText
  seconds minutes n := 60 * minutes + if minutes < 60 then (n : ℚ) / 100 else (n / 100 : Nat)
  isElapsed := isElapsed_elapsedText
  text_zero _ := rfl
  seconds_zero n := by simp
  text_pos n h := exists_elapsedText h n

/-! ## The logs -/

/-- A run of any length. -/
structure TimedRun (α : Type) (threads : Nat) where
  run : RunLog α threads
  minutes : Nat

section Logs

variable {α : Type} {threads : Nat} (format : ElapsedFormat)

/-- The line with the times of a run. -/
def TimedRun.timeLine (r : TimedRun α threads) : List Char :=
  r.run.report.lineWith (format.text r.minutes r.run.report.elapsed)

/-- The lines of a run. -/
def TimedRun.lines (write : α → List Char) (r : TimedRun α threads) : List (List Char) :=
  r.run.results.map write ++ (r.run.message ++ [r.timeLine format, r.run.report.pageLine])

/-- The text of a log. -/
def timedText (write : α → List Char) (log : List (TimedRun α threads)) : List Char :=
  (log.flatMap (TimedRun.lines format write)).flatten

/-- What there is to be read of the report of a run. -/
def TimedRun.usage (r : TimedRun α threads) : Usage where
  usr := r.run.report.user / 100
  sys := r.run.report.system / 100
  total := format.seconds r.minutes r.run.report.elapsed
  cpu := r.run.report.cpu

theorem textLines_timedText {write : α → List Char} (hwrite : ∀ a, IsLine (write a))
    (log : List (TimedRun α threads)) :
    textLines (timedText format write log) = log.flatMap (TimedRun.lines format write) := by
  refine textLines_flatten fun line hline => ?_
  obtain ⟨r, -, hmem⟩ := List.mem_flatMap.mp hline
  simp only [TimedRun.lines, RunLog.message, List.mem_append, List.mem_map, Option.mem_toList,
    List.mem_cons, Option.map_eq_some_iff, List.not_mem_nil, or_false] at hmem
  rcases hmem with ⟨a, -, rfl⟩ | ⟨text, -, rfl⟩ | rfl | rfl
  · exact hwrite a
  · exact isLine_commandLine text.property
  · exact r.run.report.isLine_lineWith (format.isElapsed _ _)
  · exact r.run.report.isLine_pageLine

/-- All times are found in the first minute, and none later. -/
theorem TimedRun.parseUsage_timeLine (r : TimedRun α threads) :
    parseUsage (r.timeLine format) = if r.minutes = 0 then some (r.usage format) else none := by
  split_ifs with hminutes
  · have hline : r.timeLine format = r.run.report.timeLine := by
      rw [← r.run.report.longLine_zero, TimedRun.timeLine, hminutes, format.text_zero]
      rfl
    rw [hline, r.run.report.parseUsage_timeLine, TimedRun.usage, hminutes, format.seconds_zero]
    rfl
  · exact r.run.report.parseUsage_lineWith (format.isElapsed _ _)
      (format.text_pos _ (Nat.pos_of_ne_zero hminutes))

end Logs

/-! ## What is recovered -/

section Recovered

variable {threads : Nat} (format : ElapsedFormat)

/-- What is to be read of a run of a sender. -/
def TimedRun.sendEntry (r : TimedRun SendResult threads) : SendEntry where
  time := sendTime r.run.results / threads
  usage := some (r.usage format)

/-- `parse_send` sums up the figures of all runs that it does not leave out as interrupted. -/
def SendRecovers (log : List (TimedRun SendResult threads)) : Prop :=
  (sendLoop threads).run (textLines (timedText format SendResult.line log)) =
    some ((log.filter fun r => !r.run.leftOut).map (TimedRun.sendEntry format))

/-- What is to be read of a run of a receiver. -/
def TimedRun.recvEntry (r : TimedRun ReceiveResult threads) : RecvEntry where
  sums := threadSums r.run.results
  usage := r.usage format

/-- `parse_recv` sums up the figures of all runs. -/
def RecvRecovers (lib : String) (log : List (TimedRun ReceiveResult threads)) : Prop :=
  (recvLoop lib threads).run (textLines (timedText format ReceiveResult.line log)) =
    some (log.map (TimedRun.recvEntry format))

/-- What `parse_send` reads, with the times that are found. -/
theorem sendLoop_timedText (hthreads : 1 ≤ threads) (log : List (TimedRun SendResult threads)) :
    (sendLoop threads).run (textLines (timedText format SendResult.line log)) =
      some ((log.filter fun r => !r.run.leftOut).map fun r =>
        { r.sendEntry format with usage := parseUsage (r.timeLine format) }) := by
  have hruns (r : TimedRun SendResult threads) (rest : List (List Char)) :
      (sendLoop threads).run (r.lines format SendResult.line ++ rest) =
        ((sendLoop threads).run rest).map
          ((r.run.entryWith (parseUsage (r.timeLine format))).toList ++ ·) := by
    rw [TimedRun.lines, List.append_assoc, List.append_assoc]
    exact sendLoop_lineRun hthreads r.run (format.isElapsed r.minutes r.run.report.elapsed) rest
  rw [textLines_timedText format SendResult.isLine, ReadLoop.run_flatMap fun r _ => hruns r]
  simp only [← List.filterMap_eq_filter, List.map_filterMap]
  refine congrArg some (List.filterMap_congr fun r _ => ?_)
  cases hleft : r.run.leftOut with
  | true => simp [RunLog.entryWith, hleft]
  | false => simp [RunLog.entryWith, hleft, TimedRun.sendEntry]

theorem sendRecovers_iff (hthreads : 1 ≤ threads) (log : List (TimedRun SendResult threads)) :
    SendRecovers format log ↔ ∀ r ∈ log, r.run.leftOut = false → r.minutes = 0 := by
  have hentry (r : TimedRun SendResult threads) :
      ({ r.sendEntry format with usage := parseUsage (r.timeLine format) } : SendEntry) =
        r.sendEntry format ↔ r.minutes = 0 := by
    rw [r.parseUsage_timeLine]
    split_ifs with hminutes <;> simp [TimedRun.sendEntry, hminutes]
  rw [SendRecovers, sendLoop_timedText format hthreads, Option.some.injEq, List.map_inj_left]
  simp only [hentry, List.mem_filter, Bool.not_eq_true', and_imp]

/-- The loop of `parse_recv` reads a run of less than a minute, and dies at any other. -/
theorem TimedRun.recvLoop_lines (lib : String) (hthreads : 1 ≤ threads)
    (r : TimedRun ReceiveResult threads) (rest : List (List Char)) :
    (recvLoop lib threads).run (r.lines format ReceiveResult.line ++ rest) =
      if r.minutes = 0 then
        ((recvLoop lib threads).run rest).map (r.recvEntry format :: ·)
      else none := by
  have hrun := @recvRun_lineRun threads lib hthreads r.run _
    (format.isElapsed r.minutes r.run.report.elapsed) rest
  have hskip : skippedByRecv lib (readLine (r.lines format ReceiveResult.line ++ rest)).1 =
      false := by
    have hlength := r.run.length_results
    cases hresults : r.run.results with
    | nil =>
      rw [hresults, List.length_nil] at hlength
      omega
    | cons result results =>
      simp only [TimedRun.lines, hresults]
      exact result.not_skipped lib
  have hlines : r.lines format ReceiveResult.line ++ rest =
      r.run.results.map ReceiveResult.line ++
        (r.run.message ++ r.timeLine format :: r.run.report.pageLine :: rest) := by
    simp [TimedRun.lines]
  obtain ⟨line, tail, hcons⟩ : ∃ line tail,
      r.lines format ReceiveResult.line ++ rest = line :: tail :=
    List.exists_cons_of_ne_nil (by simp [TimedRun.lines])
  have hbody := hrun (by rw [hlines] at hskip; exact hskip)
  rw [← TimedRun.timeLine, ← hlines, r.parseUsage_timeLine] at hbody
  rw [hcons] at hbody ⊢
  split_ifs with hminutes
  · rw [if_pos hminutes] at hbody
    have hread : (recvLoop lib threads).body line tail = some (some (r.recvEntry format), rest) :=
      hbody
    exact ReadLoop.run_cons hread
  · rw [if_neg hminutes] at hbody
    exact ReadLoop.run_cons_none hbody

theorem recvRecovers_iff (lib : String) (hthreads : 1 ≤ threads)
    (log : List (TimedRun ReceiveResult threads)) :
    RecvRecovers format lib log ↔ ∀ r ∈ log, r.minutes = 0 := by
  rw [RecvRecovers, textLines_timedText format ReceiveResult.isLine]
  induction log with
  | nil => simp
  | cons r log ih =>
    rw [List.flatMap_cons, r.recvLoop_lines format lib hthreads, List.forall_mem_cons, ← ih]
    split_ifs with hminutes
    · rw [Option.map_eq_some_iff]
      simp [hminutes]
    · simp [hminutes]

/-- The figures of all reports are recovered, by `parse_send` and by `parse_recv`, exactly when
every run took less than a minute. -/
theorem runTimes_recovered_iff (hthreads : 1 ≤ threads) (lib : String)
    (sent : List (TimedRun SendResult threads)) (received : List (TimedRun ReceiveResult threads)) :
    (SendRecovers format sent ↔ ∀ r ∈ sent, r.run.leftOut = false → r.minutes = 0) ∧
      (RecvRecovers format lib received ↔ ∀ r ∈ received, r.minutes = 0) :=
  ⟨sendRecovers_iff format hthreads sent, recvRecovers_iff format lib hthreads received⟩

end Recovered

/-- A run of three seconds behind so many minutes. -/
def timedRun {α : Type} (result : α) (minutes : Nat) : TimedRun α 1 where
  run :=
    { results := [result], length_results := rfl, command := none
      report := plainReport 300 (by decide) }
  minutes

theorem runTimes_recovered_iff_short :
    SendRecovers .ofTime [timedRun ⟨1000000, 2000⟩ 0] ∧
      ¬ RecvRecovers .ofTime "ffmpeg" [timedRun ⟨1000000, 598, 2000⟩ 75] := by
  obtain ⟨hsend, hrecv⟩ := runTimes_recovered_iff .ofTime (Nat.le_refl 1) "ffmpeg"
    [timedRun ⟨1000000, 2000⟩ 0] [timedRun ⟨1000000, 598, 2000⟩ 75]
  exact ⟨hsend.mpr (by simp [timedRun]), fun h => by simpa [timedRun] using hrecv.mp h⟩

/-- A run of a minute and three seconds: its figures are missing in the sums of `parse_send`, and
`parse_recv` dies. -/
theorem runTimes_not_recovered :
    ¬ SendRecovers .withHundredths [timedRun ⟨1000000, 2000⟩ 1] ∧
      (sendLoop 1).run (textLines
        (timedText .withHundredths SendResult.line [timedRun ⟨1000000, 2000⟩ 1])) =
          some [{ time := 2000, usage := none }] ∧
      ¬ RecvRecovers .withHundredths "uvgrtp" [timedRun ⟨1000000, 602, 2000⟩ 1] ∧
      (recvLoop "uvgrtp" 1).run (textLines
        (timedText .withHundredths ReceiveResult.line [timedRun ⟨1000000, 602, 2000⟩ 1])) =
          none := by
  refine ⟨?_, ?_, ?_, ?_⟩
  · rw [sendRecovers_iff _ (Nat.le_refl 1)]
    simp [timedRun, RunLog.leftOut]
  · rw [sendLoop_timedText _ (Nat.le_refl 1)]
    simp [timedRun, RunLog.leftOut, TimedRun.parseUsage_timeLine, TimedRun.sendEntry, sendTime]
  · rw [recvRecovers_iff _ _ (Nat.le_refl 1)]
    simp [timedRun]
  · rw [textLines_timedText _ ReceiveResult.isLine, List.flatMap_cons,
      TimedRun.recvLoop_lines _ _ (Nat.le_refl 1)]
    simp [timedRun]

end RtpBenchmarks.Results
