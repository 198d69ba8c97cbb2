import Mathlib.Algebra.Order.Field.Rat
import RtpBenchmarks.Results.TimeReport

set_option autoImplicit false

/-!
# Result files

A run of a program appends a line for each of its threads, a line about a failure if there
is one, and the two lines of `time`.  `parse_send` and `parse_recv` go through the lines
with one handle, which they advance in several places; a line that is not there is read as
an empty text.
-/

namespace RtpBenchmarks.Results

open RtpBenchmarks.Foundation

/-! ## The handle -/

/-- `<$fh>`, with an empty text for `undef`, and the lines that are left. -/
def readLine : List (List Char) → List Char × List (List Char)
  | [] => ([], [])
  | line :: rest => (line, rest)

/-- `$nums[$i]` for the numbers of a line; `undef` counts as zero. -/
def num (line : List Char) (i : Nat) : ℚ :=
  match (digitRuns line)[i]? with
  | none => 0
  | some n => n

theorem readLine_suffix (lines : List (List Char)) : (readLine lines).2 <:+ lines := by
  cases lines with
  | nil => exact List.suffix_refl []
  | cons line rest => exact List.suffix_cons line rest

theorem length_readLine_le (lines : List (List Char)) :
    (readLine lines).2.length ≤ lines.length :=
  (readLine_suffix lines).length_le

/-- `$line = <$fh> if grep /$message/, $line`. -/
def skipMessage (message : Pattern) (line : List Char) (rest : List (List Char)) :
    List Char × List (List Char) :=
  if message.occursIn line then readLine rest else (line, rest)

theorem skipMessage_suffix (message : Pattern) (line : List Char) (rest : List (List Char)) :
    (skipMessage message line rest).2 <:+ rest := by
  unfold skipMessage
  split_ifs
  · exact readLine_suffix rest
  · exact List.suffix_refl rest

theorem skipMessage_of_not {message : Pattern} {line : List Char} {rest : List (List Char)}
    (h : message.occursIn line = false) : skipMessage message line rest = (line, rest) := by
  rw [skipMessage, h]
  rfl

theorem skipMessage_cons {message : Pattern} {line next : List Char} {rest : List (List Char)}
    (h : message.occursIn line = true) :
    skipMessage message line (next :: rest) = (next, rest) := by
  rw [skipMessage, h]
  rfl

/-- The line has times. -/
def hasTimes (line : List Char) : Bool :=
  (parseUsage line).isSome

theorem hasTimes_of_not_mem {line : List Char} (h : '.' ∉ line) : hasTimes line = false := by
  rw [hasTimes, parseUsage_eq_none h]
  rfl

theorem TimeReport.hasTimes_timeLine (report : TimeReport) :
    hasTimes report.timeLine = true := by
  rw [hasTimes, report.parseUsage_timeLine]
  rfl

theorem TimeReport.not_hasTimes_pageLine (report : TimeReport) :
    hasTimes report.pageLine = false :=
  hasTimes_of_not_mem (report.not_mem_pageLine rfl (by decide))

/-- A line that is not there has no times. -/
theorem countP_readLine (lines : List (List Char)) :
    ((readLine lines).1 :: (readLine lines).2).countP hasTimes = lines.countP hasTimes := by
  cases lines with
  | nil => exact List.countP_cons_of_neg (by rw [hasTimes_of_not_mem] <;> simp [readLine])
  | cons line rest => rfl

theorem countP_readLine_le (lines : List (List Char)) :
    (readLine lines).2.countP hasTimes ≤ lines.countP hasTimes :=
  (readLine_suffix lines).sublist.countP_le

theorem countP_skipMessage_le (message : Pattern) (line : List Char) (rest : List (List Char)) :
    ((skipMessage message line rest).1 :: (skipMessage message line rest).2).countP hasTimes ≤
      (line :: rest).countP hasTimes := by
  unfold skipMessage
  split_ifs
  · rw [countP_readLine]
    exact (List.sublist_cons_self line rest).countP_le
  · exact Nat.le_refl _

/-! ## What is in the file -/

/-- The runs of a program that writes a line for each of its threads: the results, the line
about a failure if there is one, and the report. -/
structure RunLog (α : Type) (threads : Nat) where
  results : List α
  length_results : results.length = threads
  command : Option { text : List Char // '\n' ∉ text }
  report : TimeReport

/-- The line about a failure, if there is one. -/
def RunLog.message {α : Type} {threads : Nat} (run : RunLog α threads) : List (List Char) :=
  (run.command.map fun text => commandLine text.val).toList

/-- The lines of a run. -/
def RunLog.lines {α : Type} {threads : Nat} (write : α → List Char) (run : RunLog α threads) :
    List (List Char) :=
  run.results.map write ++ run.message ++ [run.report.timeLine, run.report.pageLine]

theorem RunLog.lines_append {α : Type} {threads : Nat} (write : α → List Char)
    (run : RunLog α threads) (rest : List (List Char)) :
    run.lines write ++ rest = run.results.map write ++
      (run.message ++ run.report.timeLine :: run.report.pageLine :: rest) := by
  simp [RunLog.lines]

theorem RunLog.exists_cons_lines {α : Type} {threads : Nat} (write : α → List Char)
    (run : RunLog α threads) (rest : List (List Char)) :
    ∃ line tail, run.lines write ++ rest = line :: tail :=
  List.exists_cons_of_ne_nil (by simp [RunLog.lines])

/-- The text of a result file. -/
def resultText {α : Type} {threads : Nat} (write : α → List Char)
    (runs : List (RunLog α threads)) : List Char :=
  (runs.flatMap (RunLog.lines write)).flatten

theorem RunLog.isLine_of_mem_lines {α : Type} {threads : Nat} {write : α → List Char}
    (hwrite : ∀ a, IsLine (write a)) (run : RunLog α threads) {line : List Char}
    (h : line ∈ run.lines write) : IsLine line := by
  simp only [RunLog.lines, RunLog.message, List.mem_append, List.mem_map, Option.mem_toList,
    List.mem_cons, Option.map_eq_some_iff, List.not_mem_nil, or_false] at h
  rcases h with (⟨a, -, rfl⟩ | ⟨text, -, rfl⟩) | rfl | rfl
  · exact hwrite a
  · exact isLine_commandLine text.property
  · exact run.report.isLine_timeLine
  · exact run.report.isLine_pageLine

/-- The lines are read back. -/
theorem textLines_resultText {α : Type} {threads : Nat} {write : α → List Char}
    (hwrite : ∀ a, IsLine (write a)) (runs : List (RunLog α threads)) :
    textLines (resultText write runs) = runs.flatMap (RunLog.lines write) := by
  refine textLines_flatten fun line hline => ?_
  obtain ⟨run, -, hmem⟩ := List.mem_flatMap.mp hline
  exact run.isLine_of_mem_lines hwrite hmem

/-- There is one line with times in each run. -/
theorem countP_lines {α : Type} {threads : Nat} {write : α → List Char}
    (hwrite : ∀ a, '.' ∉ write a) {runs : List (RunLog α threads)}
    (hmessage : ∀ run ∈ runs, run.message = []) :
    (runs.flatMap (RunLog.lines write)).countP hasTimes = runs.length := by
  induction runs with
  | nil => rfl
  | cons run runs ih =>
    obtain ⟨hrun, hruns⟩ := List.forall_mem_cons.mp hmessage
    have hresults : (run.results.map write).countP hasTimes = 0 := by
      rw [List.countP_eq_zero]
      rintro line hline
      obtain ⟨a, -, rfl⟩ := List.mem_map.mp hline
      rw [hasTimes_of_not_mem (hwrite a)]
      exact Bool.false_ne_true
    rw [List.flatMap_cons, run.lines_append, hrun, List.nil_append, List.countP_append, hresults,
      List.countP_cons_of_pos run.report.hasTimes_timeLine,
      List.countP_cons_of_neg (by rw [run.report.not_hasTimes_pageLine]; exact Bool.false_ne_true),
      ih hruns, List.length_cons, Nat.zero_add]

/-- Behind more lines than a run has results its times are gone. -/
theorem RunLog.countP_drop_le {α : Type} {written threads : Nat} (write : α → List Char)
    (hlt : written < threads) (run : RunLog α written) (rest : List (List Char)) :
    ((run.results.map write ++ run.report.timeLine :: run.report.pageLine :: rest).drop
      threads).countP hasTimes ≤ rest.countP hasTimes := by
  obtain ⟨k, hk⟩ := Nat.exists_eq_add_of_lt hlt
  have hthreads : threads = (run.results.map write).length + (k + 1) := by
    rw [List.length_map, run.length_results, hk, Nat.add_assoc]
  rw [hthreads, List.drop_length_add_append, List.drop_succ_cons]
  refine Nat.le_trans (List.drop_suffix k _).sublist.countP_le ?_
  rw [List.countP_cons_of_neg]
  rw [run.report.not_hasTimes_pageLine]
  exact Bool.false_ne_true

/-- The arithmetic mean. -/
def mean (xs : List ℚ) : ℚ :=
  xs.sum / xs.length

end RtpBenchmarks.Results
