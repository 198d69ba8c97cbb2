import RtpBenchmarks.Results.ParseRecv

set_option autoImplicit false

/-!
# Lines that `parse_recv` skips

For ffmpeg a run begins at a line with three numbers; the lines in front of it are skipped.
From there the program takes one line for each thread, whatever is in it, and dies when it does
not come to the times of a run behind them.
-/

namespace RtpBenchmarks.Results

open RtpBenchmarks.Foundation

section Numbers

variable {rest : List Char}

/-- The two numbers of a time in hundredths. -/
theorem digitRunsFrom_hundredths (n : Nat) {word : List Char} (hword : Separator word) :
    digitRunsFrom none (hundredths n ++ (word ++ rest)) =
      n / 100 :: n % 100 :: digitRunsFrom none rest := by
  have hpoint : Separator ".".toList := by decide
  rw [hundredths, List.append_assoc, List.append_assoc, digitRunsFrom_decimal,
    digitRunsFrom_separator hpoint, digitRunsFrom_digits (isDigits_padded _ _),
    digitsValue_padded, digitRunsFrom_separator hword]

/-- The line with the times has more numbers than a result. -/
theorem TimeReport.three_lt_timeLine (r : TimeReport) : 3 < (digitRuns r.timeLine).length := by
  obtain ⟨rest, hline⟩ : ∃ rest, r.timeLine = hundredths r.user ++ ("user ".toList ++
      (hundredths r.system ++ ("system".toList ++ rest))) := by
    simp only [timeLine, timeText, List.flatten_cons, List.append_assoc]
    exact ⟨_, rfl⟩
  have huser : Separator "user ".toList := by decide
  have hsystem : Separator "system".toList := by decide
  rw [digitRuns, hline, digitRunsFrom_hundredths _ huser, digitRunsFrom_hundredths _ hsystem]
  simp only [List.length_cons]
  omega

theorem TimeReport.digitRuns_pageLine (r : TimeReport) :
    digitRuns r.pageLine = [r.inputs, r.outputs, r.major, r.minor, r.swaps] := by
  have hline : r.pageLine = fieldsText [(r.inputs, "inputs+".toList),
      (r.outputs, "outputs (".toList), (r.major, "major+".toList),
      (r.minor, "minor)pagefaults ".toList), (r.swaps, "swaps\n".toList)] := by
    simp [pageLine, pageText, fieldsText]
  rw [hline]
  refine digitRuns_fieldsText fun f hf => ?_
  simp only [List.mem_cons, List.not_mem_nil, or_false] at hf
  rcases hf with rfl | rfl | rfl | rfl | rfl <;> dsimp only <;> decide

/-- A line that has not three numbers. -/
theorem skippedByRecv_of_length {line : List Char} (h : (digitRuns line).length ≠ 3) :
    skippedByRecv "ffmpeg" line = true := by
  simp [skippedByRecv, h]

end Numbers

section Lines

variable {lib : String} {threads : Nat} {line : List Char} {lines rest : List (List Char)}

theorem recvLoop_skips (h : ∀ line ∈ lines, skippedByRecv lib line = true) :
    (recvLoop lib threads).run (lines ++ rest) = (recvLoop lib threads).run rest := by
  induction lines with
  | nil => rfl
  | cons line lines ih =>
    obtain ⟨hline, hlines⟩ := List.forall_mem_cons.mp h
    have hbody : (recvLoop lib threads).body line (lines ++ rest) = some (none, lines ++ rest) :=
      if_pos hline
    rw [List.cons_append, ReadLoop.run_cons hbody, ih hlines]
    exact congrFun Option.map_id _

/-- The loop over the threads takes the numbers of as many lines, whatever they are. -/
theorem recvThreads_lines (lines : List (List Char)) (sums : ThreadSums)
    (next : List (List Char)) :
    let first := readLine (lines ++ next)
    recvThreads lines.length sums first.1 first.2 =
      ({ bytes := sums.bytes + (lines.map fun line => num line 0).sum
         frames := sums.frames + (lines.map fun line => num line 1).sum
         time := sums.time + (lines.map fun line => num line 2).sum },
        (readLine next).1, (readLine next).2) := by
  induction lines generalizing sums with
  | nil => simp [recvThreads]
  | cons line lines ih =>
    simp only [List.cons_append, readLine, List.length_cons, recvThreads]
    refine (ih _).trans ?_
    simp only [List.map_cons, List.sum_cons, add_assoc]
    rfl

/-- A line for each thread and the times behind them are read as a run. -/
theorem recvRun_lines_report (hlength : (line :: lines).length = threads)
    (hskip : skippedByRecv lib line = false) (report : TimeReport) :
    recvRun lib threads line (lines ++ report.timeLine :: report.pageLine :: rest) =
      some (some
        { sums :=
            { bytes := ((line :: lines).map fun line => num line 0).sum
              frames := ((line :: lines).map fun line => num line 1).sum
              time := ((line :: lines).map fun line => num line 2).sum }
          usage := report.usage }, rest) := by
  have hsums := recvThreads_lines (line :: lines) {}
    (report.timeLine :: report.pageLine :: rest)
  have hcommand : (Pattern.word "Command".toList).occursIn report.timeLine = false := by
    refine Pattern.not_occursIn_word (c := 'o') (by decide) ?_
    rw [TimeReport.timeLine, List.mem_append, not_or]
    exact ⟨report.not_mem_timeText rfl (by decide), by decide⟩
  rw [hlength] at hsums
  unfold recvRun
  rw [hskip, if_neg Bool.false_ne_true]
  dsimp only [List.cons_append, readLine] at hsums
  rw [hsums]
  dsimp only
  rw [if_neg (by rw [← hlength]; exact Nat.succ_ne_zero _), skipCommand,
    skipMessage_of_not hcommand]
  dsimp only
  rw [report.parseUsage_timeLine]
  simp [readLine]

theorem hasTimes_nil : hasTimes [] = false :=
  hasTimes_of_not_mem List.not_mem_nil

/-- Reading on where there are no times. -/
theorem hasTimes_readLine {k : Nat} (h : ∀ line ∈ lines.take (k + 1), hasTimes line = false) :
    hasTimes (readLine lines).1 = false ∧
      ∀ line ∈ (readLine lines).2.take k, hasTimes line = false := by
  cases lines with
  | nil => exact ⟨hasTimes_nil, fun line hline => absurd hline (by simp [readLine])⟩
  | cons line lines => exact List.forall_mem_cons.mp h

/-- The program dies when there are no times where it looks for them. -/
theorem recvRun_dies (hskip : skippedByRecv lib line = false)
    (htimes : ∀ l ∈ ((line :: rest).drop threads).take 2, hasTimes l = false) :
    recvRun lib threads line rest = none := by
  have hstops := recvThreads_stops threads {} line rest
  obtain ⟨hfirst, hbehind⟩ := hasTimes_readLine htimes
  rw [← hstops] at hfirst hbehind
  unfold recvRun
  rw [hskip, if_neg Bool.false_ne_true]
  generalize recvThreads threads {} line rest = after at hfirst hbehind
  obtain ⟨sums, line', rest'⟩ := after
  have hnone : parseUsage (skipCommand line' rest').1 = none := by
    have hno : hasTimes (skipCommand line' rest').1 = false := by
      unfold skipCommand skipMessage
      split_ifs
      · exact (hasTimes_readLine hbehind).1
      · exact hfirst
    rwa [hasTimes, Option.isSome_eq_false_iff, Option.isNone_iff_eq_none] at hno
  dsimp only
  rw [hnone]
  split_ifs <;> rfl

end Lines

end RtpBenchmarks.Results
