import RtpBenchmarks.Ffmpeg.Output
import RtpBenchmarks.Foundation.Grouping
import RtpBenchmarks.Foundation.Means
import RtpBenchmarks.Results.SkippedLines

set_option autoImplicit false

/-!
# Results of the FFmpeg receiver (`recv_benchmark`, `parse_recv`)

The receiving script runs the receiver round after round, with its standard error output at the
end of the file.  The program always exits with 0, and so each round leaves a line of each
thread and the report of `time`, behind what the libraries may have to say.

`parse_recv` takes marked lines like others.  It cannot tell a line about a failure from one of
a library: it skips those in front of the first result and then misses as many lines.
-/

namespace RtpBenchmarks.Ffmpeg

open RtpBenchmarks.Foundation
open RtpBenchmarks.Results

/-! ## Lines -/

def Output.isFailed : Output → Bool
  | .failed _ _ => true
  | .result _ => false

theorem ResultLine.digitRuns_text (line : ResultLine) :
    digitRuns line.text = [line.size, line.pkts, line.diffMs] := by
  have hfields : digitRuns (fieldsText [(line.size, " ".toList), (line.pkts, " ".toList),
      (line.diffMs, "\n".toList)]) = [line.size, line.pkts, line.diffMs] := by
    refine digitRuns_fieldsText fun f hf => ?_
    simp only [List.mem_cons, List.not_mem_nil, or_false] at hf
    rcases hf with rfl | rfl | rfl <;> dsimp only <;> decide
  have hdiscard : Separator "discard ".toList := by decide
  have hmark : ∀ c ∈ (if line.discard then "discard ".toList else []), c.isDigit = false := by
    split_ifs
    · exact hdiscard.2
    · exact fun c hc => absurd hc List.not_mem_nil
  rw [text, digitRuns, digitRunsFrom_none_append hmark]
  exact hfields

theorem ResultLine.not_mem_text (line : ResultLine) {c : Char} (hc : c.isDigit = false)
    (hmark : c ∉ "discard ".toList) (hspace : c ∉ " ".toList) (hend : c ∉ "\n".toList) :
    c ∉ line.text := by
  rw [text, List.mem_append, not_or]
  constructor
  · split_ifs
    · exact hmark
    · exact List.not_mem_nil
  · refine not_mem_fieldsText hc fun f hf => ?_
    simp only [List.mem_cons, List.not_mem_nil, or_false] at hf
    rcases hf with rfl | rfl | rfl
    · exact hspace
    · exact hspace
    · exact hend

theorem ResultLine.isLine_text (line : ResultLine) : IsLine line.text := by
  have hdecimal : ∀ n, '\n' ∉ decimal n := fun n => (isDigits_decimal n).not_mem rfl
  have hmark : '\n' ∉ (if line.discard then "discard ".toList else []) := by
    split_ifs <;> decide
  unfold text
  generalize (if line.discard = true then "discard ".toList else []) = mark at hmark ⊢
  refine ⟨mark ++ decimal line.size ++ [' '] ++ decimal line.pkts ++ [' '] ++
    decimal line.diffMs, ?_, ?_⟩
  · simp [fieldsText]
  · simp [hmark, hdecimal]

theorem Failure.isLine_text (failure : Failure) : IsLine failure.text := by
  have hbody : '\n' ∉ failure.text.dropLast := by
    cases failure <;> decide
  have hend : failure.text.getLast? = some '\n' := by
    cases failure <;> decide
  exact ⟨_, (List.dropLast_append_getLast? _ hend).symm, hbody⟩

theorem Failure.digitRuns_text (failure : Failure) : digitRuns failure.text = [] := by
  cases failure <;> decide

theorem Output.isLine_text (o : Output) : IsLine o.text := by
  cases o with
  | failed i failure => exact failure.isLine_text
  | result line => exact line.isLine_text

theorem Output.hasTimes_text (o : Output) : hasTimes o.text = false := by
  refine hasTimes_of_not_mem ?_
  cases o with
  | failed i failure =>
    change '.' ∉ failure.text
    cases failure <;> decide
  | result line => exact line.not_mem_text rfl (by decide) (by decide) (by decide)

theorem Output.num_text (o : Output) :
    num o.text 0 = o.size ∧ num o.text 1 = o.pkts ∧ num o.text 2 = o.ms := by
  unfold num
  cases o with
  | failed i failure =>
    rw [Output.text, failure.digitRuns_text]
    exact ⟨Nat.cast_zero.symm, Nat.cast_zero.symm, Nat.cast_zero.symm⟩
  | result line =>
    rw [Output.text, line.digitRuns_text]
    exact ⟨rfl, rfl, rfl⟩

theorem sum_num {k : Nat} {f : Output → Nat} (h : ∀ o : Output, num o.text k = f o)
    (os : List Output) :
    ((os.map Output.text).map fun line => num line k).sum = ((os.map f).sum : Nat) := by
  rw [Nat.cast_list_sum, List.map_map, List.map_map]
  exact congrArg List.sum (List.map_congr_left fun o _ => h o)

/-- A result begins a run, marked or not. -/
theorem Output.skipped_text (o : Output) : skippedByRecv "ffmpeg" o.text = o.isFailed := by
  cases o with
  | failed i failure =>
    refine skippedByRecv_of_length ?_
    rw [Output.text, failure.digitRuns_text]
    decide
  | result line =>
    have hletter : 'j' ∉ line.text := line.not_mem_text rfl (by decide) (by decide) (by decide)
    have hword := Pattern.not_occursIn_word (s := "jitter".toList) (by decide) hletter
    rw [Output.text, skippedByRecv, line.digitRuns_text, hword]
    rfl

/-- What counts for a round of which nothing is read. -/
def noEntry : RecvEntry where
  sums := {}
  usage := { usr := 0, sys := 0, total := 0, cpu := 0 }

/-! ## Rounds -/

/-- A run of the receiver up to the end of all threads, with the lines in front of its output
and the report of `time`. -/
structure Round (nthreads : Nat) where
  before : List (List Char)
  isLine_before : ∀ line ∈ before, IsLine line
  skipped_before : ∀ line ∈ before, skippedByRecv "ffmpeg" line = true
  hasTimes_before : ∀ line ∈ before, hasTimes line = false
  events : List (Event × Failure)
  final : Logged
  run : Run (Logged.step nthreads) {} events final
  ended : ∀ i < nthreads, final.state.threads i = .ended
  report : TimeReport

namespace Round

variable {nthreads : Nat}

/-- What the program has written. -/
def outputs (r : Round nthreads) : List Output :=
  r.final.outputs

/-- The lines of a round. -/
def lines (r : Round nthreads) : List (List Char) :=
  r.before ++ r.outputs.map Output.text ++ [r.report.timeLine, r.report.pageLine]

/-- No thread can read. -/
def Silent (r : Round nthreads) : Prop :=
  ∀ o ∈ r.outputs, o.isFailed = true

instance (r : Round nthreads) : Decidable r.Silent :=
  inferInstanceAs (Decidable (∀ o ∈ r.outputs, _))

/-- The first line is not about a failure, unless all are. -/
def Readable (r : Round nthreads) : Prop :=
  (∀ o ∈ r.outputs.head?, o.isFailed = true) → r.Silent

instance (r : Round nthreads) : Decidable r.Readable :=
  inferInstanceAs (Decidable (_ → _))

/-- The sums over the lines. -/
def sums (r : Round nthreads) : ThreadSums where
  bytes := ((r.outputs.map Output.size).sum : Nat)
  frames := ((r.outputs.map Output.pkts).sum : Nat)
  time := ((r.outputs.map Output.ms).sum : Nat)

/-- What is read of a round: nothing when no thread could read. -/
def entry (r : Round nthreads) : Option RecvEntry :=
  if r.Silent then none else some { sums := r.sums, usage := r.report.usage }

theorem length_outputs (r : Round nthreads) : r.outputs.length = nthreads := by
  have hlength := ((written_of_run r.run).threads_perm r.ended).length_eq
  rwa [List.length_map, List.length_range] at hlength

theorem lines_append (r : Round nthreads) (rest : List (List Char)) :
    r.lines ++ rest = r.before ++ (r.outputs.map Output.text ++
      r.report.timeLine :: r.report.pageLine :: rest) := by
  simp [lines]

theorem isLine_of_mem_lines (r : Round nthreads) {line : List Char} (h : line ∈ r.lines) :
    IsLine line := by
  simp only [lines, List.mem_append, List.mem_map, List.mem_cons, List.not_mem_nil,
    or_false] at h
  rcases h with (hbefore | ⟨o, -, rfl⟩) | rfl | rfl
  · exact r.isLine_before line hbefore
  · exact o.isLine_text
  · exact r.report.isLine_timeLine
  · exact r.report.isLine_pageLine

/-- The first result, and the failures in front of it. -/
theorem exists_first (r : Round nthreads) (h : ¬ r.Silent) :
    ∃ failures o behind, r.outputs = failures ++ o :: behind ∧
      (∀ f ∈ failures, f.isFailed = true) ∧ o.isFailed = false ∧
      (r.Readable ↔ failures = []) := by
  obtain ⟨o, ho, hresult⟩ : ∃ o ∈ r.outputs, o.isFailed = false := by
    simpa [Silent] using h
  obtain ⟨first, hfirst⟩ := Option.isSome_iff_exists.mp
    (List.find?_isSome (p := fun o => !o.isFailed).mpr ⟨o, ho, by rw [hresult]; rfl⟩)
  obtain ⟨hfirst, failures, behind, houtputs, hfailures⟩ := List.find?_eq_some_iff_append.mp hfirst
  have hfailures : ∀ f ∈ failures, f.isFailed = true := by
    simpa using hfailures
  have hfirst : first.isFailed = false := by
    simpa using hfirst
  refine ⟨failures, first, behind, houtputs, hfailures, hfirst, ?_⟩
  unfold Readable
  rw [imp_iff_not h, houtputs]
  cases failures with
  | nil => simp [hfirst]
  | cons f failures => simp [hfailures f List.mem_cons_self]

/-- All lines of a round are skipped when no thread could read. -/
theorem skipped_of_silent (r : Round nthreads) (h : r.Silent) :
    ∀ line ∈ r.lines, skippedByRecv "ffmpeg" line = true := by
  intro line hline
  simp only [lines, List.mem_append, List.mem_map, List.mem_cons, List.not_mem_nil,
    or_false] at hline
  rcases hline with (hbefore | ⟨o, ho, rfl⟩) | rfl | rfl
  · exact r.skipped_before line hbefore
  · rw [o.skipped_text]
    exact h o ho
  · exact skippedByRecv_of_length (Nat.ne_of_gt r.report.three_lt_timeLine)
  · refine skippedByRecv_of_length ?_
    rw [r.report.digitRuns_pageLine]
    change 5 ≠ 3
    decide

/-- Behind a round whose first lines were skipped there are no times where they are looked
for. -/
theorem no_times_behind (r : Round nthreads) {failures shown : List Output}
    (houtputs : r.outputs = failures ++ shown) (hne : failures ≠ []) {rest : List (List Char)}
    (hrest : ∀ line ∈ rest.take nthreads, hasTimes line = false) :
    ∀ line ∈ ((shown.map Output.text ++ r.report.timeLine :: r.report.pageLine :: rest).drop
      nthreads).take 2, hasTimes line = false := by
  obtain ⟨k, hk⟩ : ∃ k, failures.length = k + 1 :=
    ⟨failures.length - 1, (Nat.succ_pred_eq_of_pos (List.length_pos_of_ne_nil hne)).symm⟩
  have hlength : nthreads = (shown.map Output.text).length + (k + 1) := by
    rw [← r.length_outputs, houtputs, List.length_append, hk, List.length_map, Nat.add_comm]
  have hdrop (time page : List Char) : (shown.map Output.text ++ time :: page :: rest).drop
      nthreads = (page :: rest).drop k := by
    rw [hlength, List.drop_length_add_append, List.drop_succ_cons]
  intro line hline
  rw [hdrop, List.take_drop] at hline
  have hmem := List.mem_of_mem_drop hline
  rw [List.take_succ_cons] at hmem
  rcases List.mem_cons.mp hmem with rfl | hmem
  · exact r.report.not_hasTimes_pageLine
  · exact hrest line (List.take_subset_take_left _ (by omega) hmem)

/-- A round is read from where its first result is, or the program dies. -/
theorem run_lines (r : Round nthreads) {rest : List (List Char)}
    (hrest : ∀ line ∈ rest.take nthreads, hasTimes line = false) :
    (recvLoop "ffmpeg" nthreads).run (r.lines ++ rest) =
      if r.Readable then
        ((recvLoop "ffmpeg" nthreads).run rest).map (r.entry.toList ++ ·)
      else none := by
  by_cases hsilent : r.Silent
  · have hreadable : r.Readable := fun _ => hsilent
    rw [recvLoop_skips (r.skipped_of_silent hsilent), if_pos hreadable, entry, if_pos hsilent]
    exact (congrFun Option.map_id _).symm
  · obtain ⟨failures, o, behind, houtputs, hfailures, ho, hiff⟩ := r.exists_first hsilent
    have hskip : skippedByRecv "ffmpeg" o.text = false := by
      rw [o.skipped_text, ho]
    rw [r.lines_append, recvLoop_skips r.skipped_before]
    split_ifs with hreadable
    · obtain rfl := hiff.mp hreadable
      rw [List.nil_append] at houtputs
      have hlength : (o.text :: behind.map Output.text).length = nthreads := by
        rw [← r.length_outputs, houtputs, List.length_cons, List.length_map, List.length_cons]
      have hbody := @recvRun_lines_report "ffmpeg" nthreads _ _ rest hlength hskip r.report
      rw [← List.map_cons, ← houtputs, sum_num fun o => o.num_text.1,
        sum_num fun o => o.num_text.2.1, sum_num fun o => o.num_text.2.2] at hbody
      rw [houtputs, List.map_cons, List.cons_append, ReadLoop.run_cons hbody, entry,
        if_neg hsilent]
      rfl
    · have hne : failures ≠ [] := fun hnil => hreadable (hiff.mpr hnil)
      have htimes := r.no_times_behind houtputs hne hrest
      have hbody : (recvLoop "ffmpeg" nthreads).body o.text (behind.map Output.text ++
          r.report.timeLine :: r.report.pageLine :: rest) = none := recvRun_dies hskip htimes
      rw [houtputs, List.map_append, List.append_assoc, recvLoop_skips ?_, List.map_cons,
        List.cons_append, ReadLoop.run_cons_none hbody]
      intro line hline
      obtain ⟨f, hf, rfl⟩ := List.mem_map.mp hline
      rw [f.skipped_text]
      exact hfailures f hf

/-! ## What the threads have received -/

/-- The steps of the program. -/
def steps (r : Round nthreads) : List Event :=
  r.events.map Prod.fst

/-- The bytes of the threads' video streams. -/
def bytes (r : Round nthreads) : Nat :=
  ((List.range nthreads).map fun i => threadBytes i r.steps).sum

/-- The packets of all threads. -/
def packets (r : Round nthreads) : Nat :=
  (packetsRead r.steps).length

/-- The packets that the lines of a round tell, and their times. -/
def told (r : Round nthreads) : Nat :=
  (r.outputs.map Output.pkts).sum

def ms (r : Round nthreads) : Nat :=
  (r.outputs.map Output.ms).sum

/-- The times that are counted of a round. -/
def usage (r : Round nthreads) : Usage :=
  if r.Silent then noEntry.usage else r.report.usage

/-- What is counted of a round. -/
def counted (r : Round nthreads) : RecvEntry where
  sums := r.sums
  usage := r.usage

theorem counted_of_silent (r : Round nthreads) (h : r.Silent) : r.counted = noEntry := by
  have hzero : ∀ f : Output → Nat, (∀ i failure, f (.failed i failure) = 0) →
      (r.outputs.map f).sum = 0 := by
    intro f hf
    refine List.sum_eq_zero fun n hn => ?_
    obtain ⟨o, ho, rfl⟩ := List.mem_map.mp hn
    cases o with
    | failed i failure => exact hf i failure
    | result line => exact absurd (h _ ho) Bool.false_ne_true
  rw [counted, usage, if_pos h, sums, hzero Output.size fun _ _ => rfl,
    hzero Output.pkts fun _ _ => rfl, hzero Output.ms fun _ _ => rfl, Nat.cast_zero]
  rfl

theorem counted_of_not_silent (r : Round nthreads) (h : ¬ r.Silent) :
    r.counted = { sums := r.sums, usage := r.report.usage } := by
  rw [counted, usage, if_neg h]

theorem written (r : Round nthreads) : Written nthreads r.steps r.final :=
  written_of_run r.run

/-- A sum over the threads, as one over their lines. -/
theorem sum_threads (r : Round nthreads) (f : Nat → Nat) :
    (r.outputs.map fun o => f o.thread).sum = ((List.range nthreads).map f).sum := by
  have hperm := (r.written.threads_perm r.ended).map f
  rw [List.map_map] at hperm
  exact hperm.sum_eq

theorem sum_size (r : Round nthreads) : (r.outputs.map Output.size).sum = r.bytes := by
  rw [bytes, ← r.sum_threads fun i => threadBytes i r.steps]
  exact congrArg List.sum (List.map_congr_left fun o ho => r.written.size o ho)

theorem sum_threadPackets (r : Round nthreads) :
    (r.outputs.map fun o => threadPackets o.thread r.steps).sum = r.packets := by
  have hlt : ∀ p ∈ packetsRead r.steps, p.1 < nthreads := fun p hp =>
    r.written.fst_lt (read_totals (Logged.run_state r.run)) hp
  rw [r.sum_threads fun i => threadPackets i r.steps]
  exact sum_countP_fst hlt

/-- No line counts packets of another thread. -/
def OwnOnly (r : Round nthreads) : Prop :=
  ∀ o ∈ r.outputs, o.pkts = threadPackets o.thread r.steps

instance (r : Round nthreads) : Decidable r.OwnOnly :=
  inferInstanceAs (Decidable (∀ o ∈ r.outputs, _))

/-- The lines tell all packets at least once. -/
theorem packets_le (r : Round nthreads) :
    r.packets ≤ r.told ∧ (r.told = r.packets ↔ r.OwnOnly) := by
  have hown : ∀ o ∈ r.outputs, threadPackets o.thread r.steps ≤ o.pkts := r.written.own
  rw [← r.sum_threadPackets, told]
  refine ⟨List.sum_le_sum hown, ?_⟩
  rw [eq_comm, Means.sum_map_eq_iff_of_le hown]
  exact forall₂_congr fun o _ => eq_comm

end Round

/-! ## What is read -/

section Read

variable {nthreads : Nat}

/-- Where the next round begins, its times come behind a line for each thread. -/
theorem no_times_ahead (rounds : List (Round nthreads)) :
    ∀ line ∈ (rounds.flatMap Round.lines).take nthreads, hasTimes line = false := by
  cases rounds with
  | nil => exact fun line hline => absurd hline (by simp)
  | cons r rounds =>
    intro line hline
    have hle : nthreads ≤ (r.before ++ r.outputs.map Output.text).length := by
      rw [List.length_append, List.length_map, r.length_outputs]
      exact Nat.le_add_left _ _
    rw [List.flatMap_cons, r.lines_append, ← List.append_assoc,
      List.take_append_of_le_length hle] at hline
    rcases List.mem_append.mp (List.mem_of_mem_take hline) with hbefore | hmem
    · exact r.hasTimes_before line hbefore
    · obtain ⟨o, -, rfl⟩ := List.mem_map.mp hmem
      exact o.hasTimes_text

theorem recvLoop_rounds (rounds : List (Round nthreads)) :
    (recvLoop "ffmpeg" nthreads).run (rounds.flatMap Round.lines) =
      if ∀ r ∈ rounds, r.Readable then some (rounds.filterMap Round.entry) else none := by
  induction rounds with
  | nil => simp
  | cons r rounds ih =>
    rw [List.flatMap_cons, r.run_lines (no_times_ahead rounds), ih]
    simp only [List.forall_mem_cons]
    by_cases hr : r.Readable
    · simp only [hr, true_and, if_true]
      split_ifs
      · rw [Option.map_some, List.filterMap_cons]
        cases r.entry <;> rfl
      · rfl
    · simp only [hr, false_and, if_false]

/-- The totals after all runs. -/
theorem foldl_entries (t : RecvTotals) (entries : List RecvEntry) :
    entries.foldl (RecvTotals.add nthreads) t =
      { usr := t.usr + (entries.map (·.usage.usr)).sum
        sys := t.sys + (entries.map (·.usage.sys)).sum
        cpu := t.cpu + (entries.map (·.usage.cpu)).sum
        total := t.total + (entries.map (·.usage.total)).sum
        frames := t.frames + (entries.map fun e => e.sums.frames / (nthreads : ℚ)).sum
        bytes := t.bytes + (entries.map fun e => e.sums.bytes / (nthreads : ℚ)).sum
        time := t.time + (entries.map fun e => e.sums.time / (nthreads : ℚ)).sum } := by
  induction entries generalizing t with
  | nil => simp
  | cons e entries ih =>
    rw [List.foldl_cons, ih]
    simp only [RecvTotals.add, List.map_cons, List.sum_cons, add_assoc]

/-- A sum over what is read, as one over all rounds. -/
theorem sum_entries {f : RecvEntry → ℚ} (hf : f noEntry = 0) (rounds : List (Round nthreads)) :
    ((rounds.filterMap Round.entry).map f).sum = (rounds.map fun r => f r.counted).sum := by
  induction rounds with
  | nil => rfl
  | cons r rounds ih =>
    rw [List.map_cons, List.sum_cons, ← ih, List.filterMap_cons, Round.entry]
    by_cases hsilent : r.Silent
    · rw [if_pos hsilent, r.counted_of_silent hsilent, hf, zero_add]
    · rw [if_neg hsilent, List.map_cons, List.sum_cons, r.counted_of_not_silent hsilent]

/-- The totals over all rounds. -/
theorem foldl_rounds (rounds : List (Round nthreads)) :
    (rounds.filterMap Round.entry).foldl (RecvTotals.add nthreads) {} =
      { usr := (rounds.map fun r => r.usage.usr).sum
        sys := (rounds.map fun r => r.usage.sys).sum
        cpu := (rounds.map fun r => r.usage.cpu).sum
        total := (rounds.map fun r => r.usage.total).sum
        frames := (rounds.map fun r => r.sums.frames / (nthreads : ℚ)).sum
        bytes := (rounds.map fun r => r.sums.bytes / (nthreads : ℚ)).sum
        time := (rounds.map fun r => r.sums.time / (nthreads : ℚ)).sum } := by
  have hzero : (0 : ℚ) / nthreads = 0 := zero_div _
  rw [foldl_entries, sum_entries rfl, sum_entries rfl, sum_entries rfl, sum_entries rfl,
    sum_entries hzero, sum_entries hzero, sum_entries hzero]
  simp only [zero_add]
  rfl

end Read

/-- The result file of a thread count and a frame rate. -/
def logText {nthreads : Nat} (rounds : List (Round nthreads)) : List Char :=
  (rounds.flatMap Round.lines).flatten

section Values

variable {nthreads : Nat}

/-- A mean over rounds and threads. -/
def roundMean (f : Round nthreads → Nat) (rounds : List (Round nthreads)) : ℚ :=
  mean (rounds.map fun r => (f r : ℚ) / nthreads)

theorem roundMean_eq (f : Round nthreads → Nat) (rounds : List (Round nthreads)) :
    roundMean f rounds = ((rounds.map f).sum : Nat) / nthreads / rounds.length := by
  rw [roundMean, mean, List.length_map, Nat.cast_list_sum, List.map_map]
  simp only [div_eq_mul_inv, List.sum_map_mul_right]
  rfl

/-- There is a time when there is one in a line. -/
theorem roundMean_ms_ne_zero (hn : 1 ≤ nthreads) (rounds : List (Round nthreads)) :
    roundMean Round.ms rounds ≠ 0 ↔ ∃ r ∈ rounds, ∃ o ∈ r.outputs, o.ms ≠ 0 := by
  have hsum : roundMean Round.ms rounds = 0 ↔ (rounds.map Round.ms).sum = 0 := by
    rw [roundMean_eq, div_eq_zero_iff, div_eq_zero_iff, Nat.cast_eq_zero, Nat.cast_eq_zero,
      Nat.cast_eq_zero, List.length_eq_zero_iff]
    constructor
    · rintro ((hzero | hzero) | rfl)
      · exact hzero
      · omega
      · rfl
    · exact fun hzero => .inl (.inl hzero)
  rw [Ne, hsum, List.sum_eq_zero_iff, List.forall_mem_map]
  simp only [Round.ms, List.sum_eq_zero_iff, List.forall_mem_map]
  simp only [not_forall, exists_prop]

/-- The packets that the lines tell, and those that the threads have received. -/
theorem roundMean_packets_le (hn : 1 ≤ nthreads) {rounds : List (Round nthreads)}
    (hne : rounds ≠ []) :
    roundMean Round.packets rounds ≤ roundMean Round.told rounds ∧
      (roundMean Round.told rounds = roundMean Round.packets rounds ↔
        ∀ r ∈ rounds, r.OwnOnly) := by
  have hthreads : (0 : ℚ) < nthreads := Nat.cast_pos.mpr hn
  have hrounds : (0 : ℚ) < rounds.length := Nat.cast_pos.mpr (List.length_pos_of_ne_nil hne)
  have hle : ∀ r ∈ rounds, r.packets ≤ r.told := fun r _ => r.packets_le.1
  have hsum : (rounds.map Round.packets).sum ≤ (rounds.map Round.told).sum :=
    List.sum_le_sum hle
  rw [roundMean_eq, roundMean_eq]
  constructor
  · gcongr
  · rw [div_left_inj' hrounds.ne', div_left_inj' hthreads.ne', Nat.cast_inj, eq_comm,
      Means.sum_map_eq_iff_of_le hle]
    exact forall₂_congr fun r _ => eq_comm.trans r.packets_le.2

theorem isSome_goodput {amount time : ℚ} {unit : String} :
    (goodput amount time unit).isSome ↔ time ≠ 0 := by
  constructor
  · rintro hsome rfl
    rw [goodput, if_pos rfl] at hsome
    cases hsome
  · intro htime
    obtain ⟨gp, hgp⟩ := exists_goodput amount htime unit
    rw [hgp]
    rfl

/-- The mean of what is added up over the rounds. -/
theorem sum_sums {f : ThreadSums → ℚ} {g : Round nthreads → Nat} (h : ∀ r, f (Round.sums r) = g r)
    (rounds : List (Round nthreads)) :
    (rounds.map fun r => f r.sums / (nthreads : ℚ)).sum / rounds.length = roundMean g rounds := by
  rw [roundMean, mean, List.length_map]
  simp only [h]

theorem Round.sums_bytes (r : Round nthreads) : r.sums.bytes = r.bytes := by
  rw [sums, r.sum_size]

/-- What `parse_recv` makes of the file. -/
theorem parseRecv_rounds_eq (unit : String) (rounds : List (Round nthreads)) {filesize : ℚ}
    (hsize : 0 < filesize) :
    parseRecv "ffmpeg" rounds.length nthreads unit filesize (logText rounds) =
      if (∀ r ∈ rounds, r.Readable) ∧ rounds ≠ [] then
        (goodput (filesize * (roundMean Round.bytes rounds / filesize))
          (roundMean Round.ms rounds) unit).map fun gp =>
          { usr := mean (rounds.map fun r => r.usage.usr)
            sys := mean (rounds.map fun r => r.usage.sys)
            cpu := mean (rounds.map fun r => r.usage.cpu) / 100
            total := mean (rounds.map fun r => r.usage.total)
            frameLoss := 1 - roundMean Round.told rounds / 598
            bytes := roundMean Round.bytes rounds / filesize
            goodput := gp }
      else none := by
  have hlines : ∀ line ∈ rounds.flatMap Round.lines, IsLine line := by
    intro line hline
    obtain ⟨r, -, hmem⟩ := List.mem_flatMap.mp hline
    exact r.isLine_of_mem_lines hmem
  unfold parseRecv logText
  rw [textLines_flatten hlines, recvLoop_rounds]
  by_cases hreadable : ∀ r ∈ rounds, r.Readable
  · have hentries := @foldl_rounds nthreads rounds
    rw [if_pos hreadable, Option.bind_eq_bind, Option.bind_some]
    dsimp only
    rw [hentries]
    by_cases hne : rounds = []
    · rw [if_pos (.inl (hne ▸ rfl)), if_neg fun h => h.2 hne]
    · have hcount : ¬ (rounds.length = 0 ∨ filesize = 0) := by
        simp [hne, hsize.ne']
      rw [if_neg hcount, if_pos ⟨hreadable, hne⟩]
      dsimp only
      rw [sum_sums (f := ThreadSums.bytes) Round.sums_bytes,
        sum_sums (f := ThreadSums.frames) (g := Round.told) fun _ => rfl,
        sum_sums (f := ThreadSums.time) (g := Round.ms) fun _ => rfl]
      simp only [mean, List.length_map]
      cases goodput (filesize * (roundMean Round.bytes rounds / filesize))
        (roundMean Round.ms rounds) unit with
      | none => rfl
      | some gp => rfl
  · rw [if_neg hreadable, if_neg fun h => hreadable h.1]
    rfl

end Values

theorem short_run : 250 < 6000 := by
  decide

/-- Thread 1 ends behind thread 0, whose packet it counts too. -/
def twoThreads : List (Event × Failure) :=
  [(.start 0 [true] 0, .openInput), (.start 1 [true] 0, .openInput),
    (.read 0 ⟨0, 400⟩ 3000000, .openInput), (.finish 0, .openInput),
    (.read 1 ⟨0, 600⟩ 5000000, .openInput), (.finish 1, .openInput)]

def twoRound : Round 2 where
  before := ["jitter 1 2 3\n".toList]
  isLine_before := by
    intro line hline
    obtain rfl := List.mem_singleton.mp hline
    exact ⟨"jitter 1 2 3".toList, by decide, by decide⟩
  skipped_before := by decide
  hasTimes_before := by
    intro line hline
    obtain rfl := List.mem_singleton.mp hline
    exact hasTimes_of_not_mem (by decide)
  events := twoThreads
  final := (twoThreads.foldlM (Logged.step 2) {}).get rfl
  run := run_get rfl
  ended := by decide
  report := plainReport 250 short_run

/-- The first line is about thread 0. -/
def threeRound : Round 3 where
  before := []
  isLine_before line hline := absurd hline List.not_mem_nil
  skipped_before line hline := absurd hline List.not_mem_nil
  hasTimes_before line hline := absurd hline List.not_mem_nil
  events := threeThreads
  final := (threeThreads.foldlM (Logged.step 3) {}).get rfl
  run := run_get rfl
  ended := by decide
  report := plainReport 250 short_run

end RtpBenchmarks.Ffmpeg
