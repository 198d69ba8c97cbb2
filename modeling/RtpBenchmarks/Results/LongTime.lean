import Mathlib.Data.List.Basic
import RtpBenchmarks.Results.TimeReport

set_option autoImplicit false

/-!
# The report of `time` after a minute

`time` prints the elapsed time as `m:ss.cc`, and as `h:mm:ss` from an hour on.  The pattern
of `parse.pl` asks for no minutes, so that it finds none of the times in the report of a
program that has run for a minute.
-/

namespace RtpBenchmarks.Results

open RtpBenchmarks.Foundation

/-! ## The writer -/

/-- The elapsed time: whole minutes, and hundredths of a second behind them. -/
def elapsedText (minutes n : Nat) : List Char :=
  if minutes < 60 then decimal minutes ++ ":".toList ++ elapsedSeconds n
  else
    decimal (minutes / 60) ++ ":".toList ++
      (padded 2 (minutes % 60) ++ ":".toList ++ padded 2 (n / 100))

namespace TimeReport

/-- The line with the times when `minutes` have passed in addition, without its newline. -/
def longText (r : TimeReport) (minutes : Nat) : List Char :=
  [hundredths r.user, "user".toList, [' '], hundredths r.system, "system".toList, [' '],
    elapsedText minutes r.elapsed, "elapsed".toList, [' '], decimal r.cpu, "%CPU".toList,
    " (".toList, decimal r.avgtext, "avgtext+".toList, decimal r.avgdata, "avgdata ".toList,
    decimal r.maxresident, "maxresident)k".toList].flatten

def longLine (r : TimeReport) (minutes : Nat) : List Char :=
  r.longText minutes ++ ['\n']

/-- The line with the times and any text for the elapsed time. -/
def lineWith (r : TimeReport) (elapsed : List Char) : List Char :=
  [hundredths r.user, "user".toList, [' '], hundredths r.system, "system".toList, [' '],
    elapsed, "elapsed".toList, [' '], decimal r.cpu, "%CPU".toList, " (".toList,
    decimal r.avgtext, "avgtext+".toList, decimal r.avgdata, "avgdata ".toList,
    decimal r.maxresident, "maxresident)k".toList].flatten ++ ['\n']

/-- The elapsed time that is printed, in milliseconds. -/
def reportedMs (r : TimeReport) (minutes : Nat) : Nat :=
  60000 * minutes + if minutes < 60 then 10 * r.elapsed else 1000 * (r.elapsed / 100)

/-- In the first minute the line is the one that can be read. -/
theorem longLine_zero (r : TimeReport) : r.longLine 0 = r.timeLine := by
  have hzero : elapsedText 0 r.elapsed = "0:".toList ++ elapsedSeconds r.elapsed := rfl
  simp only [longLine, longText, timeLine, timeText, hzero, List.flatten_cons, List.append_assoc]

end TimeReport

/-! ## What is in the line -/

/-- Digits, colons and points. -/
def IsElapsed (elapsed : List Char) : Prop :=
  ∀ c ∈ elapsed, c.isDigit = true ∨ c = ':' ∨ c = '.'

theorem IsElapsed.not_mem {elapsed : List Char} (h : IsElapsed elapsed) {c : Char}
    (hc : c.isDigit = false) (hcolon : c ≠ ':') (hpoint : c ≠ '.') : c ∉ elapsed := by
  intro hmem
  rcases h c hmem with hdigit | rfl | rfl
  · rw [hdigit] at hc
    cases hc
  · exact hcolon rfl
  · exact hpoint rfl

theorem IsElapsed.append {a b : List Char} (ha : IsElapsed a) (hb : IsElapsed b) :
    IsElapsed (a ++ b) :=
  List.forall_mem_append.mpr ⟨ha, hb⟩

theorem isElapsed_digits {digits : List Char} (h : IsDigits digits) : IsElapsed digits :=
  fun c hc => .inl (h.2 c hc)

theorem isElapsed_elapsedSeconds (n : Nat) : IsElapsed (elapsedSeconds n) :=
  ((isElapsed_digits (isDigits_padded 2 _)).append (by simp [IsElapsed])).append
    (isElapsed_digits (isDigits_padded 2 _))

theorem isElapsed_elapsedText (minutes n : Nat) : IsElapsed (elapsedText minutes n) := by
  have hcolon : IsElapsed ":".toList := by simp [IsElapsed]
  have hdecimal (n : Nat) : IsElapsed (decimal n) := isElapsed_digits (isDigits_decimal n)
  have hpadded (n : Nat) : IsElapsed (padded 2 n) := isElapsed_digits (isDigits_padded 2 n)
  unfold elapsedText
  split_ifs
  · exact ((hdecimal _).append hcolon).append (isElapsed_elapsedSeconds n)
  · exact ((hdecimal _).append hcolon).append (((hpadded _).append hcolon).append (hpadded _))

section Line

variable {elapsed : List Char} (r : TimeReport)

/-- A character that is neither a digit nor in the words of the line. -/
theorem TimeReport.not_mem_lineWith (h : IsElapsed elapsed) {c : Char} (hc : c.isDigit = false)
    (hwords : c ∉ "user system :.elapsed %CPU (avgtext+avgdata maxresident)k\n".toList) :
    c ∉ r.lineWith elapsed := by
  have hdecimal : ∀ n, c ∉ decimal n := fun n => (isDigits_decimal n).not_mem hc
  have hpoint : c ∉ ".".toList := fun h => hwords (by simp at h; simp [h])
  have hhundredths : ∀ n, c ∉ hundredths n := fun n => (not_mem_seconds hc hpoint n).1
  have helapsed : c ∉ elapsed :=
    h.not_mem hc (fun h => hwords (by simp [h])) (fun h => hwords (by simp [h]))
  simp at hwords
  simp [lineWith, hdecimal, helapsed, hhundredths, hwords]

theorem TimeReport.isLine_lineWith (h : IsElapsed elapsed) : IsLine (r.lineWith elapsed) := by
  have hseconds := not_mem_seconds (c := '\n') rfl (by decide)
  have hdecimal : ∀ n, '\n' ∉ decimal n := fun n => (isDigits_decimal n).not_mem rfl
  have helapsed : '\n' ∉ elapsed := h.not_mem rfl (by decide) (by decide)
  exact isLine_append (by simp [hseconds, hdecimal, helapsed])

/-- The letters of the word are all in the line with the times, but not in a row. -/
theorem TimeReport.not_terminated_lineWith (h : IsElapsed elapsed) :
    (Pattern.word "terminated".toList).occursIn (r.lineWith elapsed) = false := by
  refine Pattern.not_occursIn_of_skips ?_ rfl
  have hdigits (n : Nat) (rest : List Char) :
      (Pattern.word "terminated".toList).Skips (decimal n) rest :=
    Pattern.skips_word ((isDigits_decimal n).not_mem rfl)
  have hseconds (n : Nat) (rest : List Char) :
      (Pattern.word "terminated".toList).Skips (hundredths n) rest :=
    Pattern.skips_word (@not_mem_seconds 't' rfl (by decide) n).1
  have helapsed (rest : List Char) :
      (Pattern.word "terminated".toList).Skips elapsed rest :=
    Pattern.skips_word (h.not_mem rfl (by decide) (by decide))
  refine Pattern.skips_append.mpr ⟨Pattern.skips_flatten ?_ _, Pattern.skips_word (by decide)⟩
  simp only [List.forall_mem_cons]
  refine ⟨hseconds _, ?_, ?_, hseconds _, ?_, ?_, helapsed, ?_, ?_, hdigits _, ?_, ?_, hdigits _,
    ?_, hdigits _, ?_, hdigits _, ?_, ?_⟩
  all_goals simp [Pattern.word, Pattern.wordBy, Pattern.results]

end Line

theorem TimeReport.isLine_longLine (r : TimeReport) (minutes : Nat) :
    IsLine (r.longLine minutes) :=
  r.isLine_lineWith (isElapsed_elapsedText minutes r.elapsed)

/-! ## What is not found -/

/-- Where the pattern matches, the elapsed time begins with no minutes. -/
theorem system_of_mem_results {text : List Char} {m : List (List Char) × List Char}
    (h : m ∈ timePattern.results text) :
    ∃ before c rest, text = before ++ "system".toList ++ c :: ("0:".toList ++ rest) := by
  obtain ⟨m₁, h₁, m₂, h, -⟩ := Pattern.mem_results_seq.mp h
  obtain ⟨m₃, h₃, m₄, h, -⟩ := Pattern.mem_results_seq.mp h
  obtain ⟨m₅, h₅, m₆, h, -⟩ := Pattern.mem_results_seq.mp h
  obtain ⟨m₇, h₇, m₈, h, -⟩ := Pattern.mem_results_seq.mp h
  obtain ⟨m₉, h₉, m₁₀, h, -⟩ := Pattern.mem_results_seq.mp h
  obtain ⟨m₁₁, h₁₁, m₁₂, h, -⟩ := Pattern.mem_results_seq.mp h
  obtain ⟨m₁₃, h₁₃, -, -, -⟩ := Pattern.mem_results_seq.mp h
  -- up to here the match may have taken anything
  obtain ⟨before, hbefore⟩ : m₇.2 <:+ text :=
    (Pattern.suffix_of_mem_results h₇).trans ((Pattern.suffix_of_mem_results h₅).trans
      ((Pattern.suffix_of_mem_results h₃).trans (Pattern.suffix_of_mem_results h₁)))
  obtain ⟨-, hsystem⟩ := Pattern.mem_results_word h₉
  obtain ⟨c, -, hspace, -⟩ := Pattern.mem_results_char h₁₁
  obtain ⟨-, hzero⟩ := Pattern.mem_results_word h₁₃
  exact ⟨before, c, m₁₃.2, by rw [← hbefore, hsystem, hspace, hzero, List.append_assoc]⟩

/-- From a minute on the elapsed time begins with another number than zero. -/
theorem exists_elapsedText {minutes : Nat} (h : 1 ≤ minutes) (n : Nat) :
    ∃ k rest, k ≠ 0 ∧ elapsedText minutes n = decimal k ++ ':' :: rest := by
  unfold elapsedText
  split_ifs with hhour
  · exact ⟨minutes, elapsedSeconds n, by omega, by simp⟩
  · exact ⟨minutes / 60, padded 2 (minutes % 60) ++ ":".toList ++ padded 2 (n / 100), by omega,
      by simp⟩

/-- None of the times is found in a line whose elapsed time begins so. -/
theorem TimeReport.parseUsage_lineWith (r : TimeReport) {elapsed : List Char}
    (h : IsElapsed elapsed) (hminutes : ∃ k rest, k ≠ 0 ∧ elapsed = decimal k ++ ':' :: rest) :
    parseUsage (r.lineWith elapsed) = none := by
  have hnone : timePattern.search (r.lineWith elapsed) = none := by
    cases hsearch : timePattern.search (r.lineWith elapsed) with
    | none => rfl
    | some g =>
      obtain ⟨front, after, rest, hline, hmem⟩ := Pattern.exists_of_search hsearch
      obtain ⟨before, c, tail, rfl⟩ := system_of_mem_results hmem
      have hdecimal : ∀ n, 'y' ∉ decimal n := fun n => (isDigits_decimal n).not_mem rfl
      have hseconds := not_mem_seconds (c := 'y') rfl (by decide)
      have htext : 'y' ∉ elapsed := h.not_mem rfl (by decide) (by decide)
      -- the line has one `y`, and it is that of `system`
      obtain ⟨behind, hsplit, hbehind⟩ : ∃ behind, r.lineWith elapsed =
          (hundredths r.user ++ "user ".toList ++ hundredths r.system ++ ['s']) ++ 'y' ::
            ("stem ".toList ++ elapsed ++ behind) ∧ 'y' ∉ behind := by
        refine ⟨["elapsed ".toList, decimal r.cpu, "%CPU (".toList, decimal r.avgtext,
          "avgtext+".toList, decimal r.avgdata, "avgdata ".toList, decimal r.maxresident,
          "maxresident)k\n".toList].flatten, ?_, ?_⟩
        · simp [lineWith]
        · simp [hdecimal]
      have hmatch : r.lineWith elapsed = (front ++ before ++ ['s']) ++ 'y' ::
          ("stem".toList ++ c :: ("0:".toList ++ tail)) := by
        rw [hline]
        simp
      have hafter := ((List.append_cons_inj_of_notMem (by simp [hseconds])
        (by simp [htext, hbehind])).mp (hsplit.symm.trans hmatch)).2.2
      obtain ⟨k, minutesTail, hk, rfl⟩ := hminutes
      have hzero : decimal k ++ ':' :: (minutesTail ++ behind) = decimal 0 ++ ':' :: tail := by
        simp at hafter
        exact hafter.2
      exact absurd (decimal_append_inj rfl hzero).1 hk
  rw [parseUsage, hnone]

/-- None of the times is found in the report of a program that has run for a minute. -/
theorem TimeReport.parseUsage_longLine (r : TimeReport) {minutes : Nat} (h : 1 ≤ minutes) :
    parseUsage (r.longLine minutes) = none :=
  r.parseUsage_lineWith (isElapsed_elapsedText minutes r.elapsed)
    (exists_elapsedText h r.elapsed)

end RtpBenchmarks.Results
