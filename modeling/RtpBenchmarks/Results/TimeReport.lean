import Mathlib.Algebra.Order.Field.Rat
import Mathlib.Tactic.FieldSimp
import Mathlib.Tactic.Ring
import RtpBenchmarks.Foundation.DecimalText
import RtpBenchmarks.Foundation.Pattern
import RtpBenchmarks.Foundation.TextLines

set_option autoImplicit false

/-!
# The report of `time`

`benchmark.pl` runs every program under `time`, which appends two lines to the result file,
and one in front of them when the program has failed.  `parse.pl` finds the times in the
first of the two lines with a regular expression and drops the second.
-/

namespace RtpBenchmarks.Results

open RtpBenchmarks.Foundation

/-! ## The writer -/

/-- What `time` measures: times in hundredths of a second, elapsed below one minute, and the
other figures of its default format. -/
structure TimeReport where
  user : Nat
  system : Nat
  elapsed : Nat
  elapsed_lt : elapsed < 6000
  cpu : Nat
  avgtext : Nat
  avgdata : Nat
  maxresident : Nat
  inputs : Nat
  outputs : Nat
  major : Nat
  minor : Nat
  swaps : Nat

/-- A time in seconds. -/
def hundredths (n : Nat) : List Char :=
  decimal (n / 100) ++ ".".toList ++ padded 2 (n % 100)

/-- The seconds of an elapsed time. -/
def elapsedSeconds (n : Nat) : List Char :=
  padded 2 (n / 100) ++ ".".toList ++ padded 2 (n % 100)

/-- The line with the times, without its newline. -/
def TimeReport.timeText (r : TimeReport) : List Char :=
  [hundredths r.user, "user".toList, [' '], hundredths r.system, "system".toList, [' '],
    "0:".toList, elapsedSeconds r.elapsed, "elapsed".toList, [' '], decimal r.cpu,
    "%CPU".toList, " (".toList, decimal r.avgtext, "avgtext+".toList, decimal r.avgdata,
    "avgdata ".toList, decimal r.maxresident, "maxresident)k".toList].flatten

def TimeReport.timeLine (r : TimeReport) : List Char :=
  r.timeText ++ ['\n']

/-- The line about inputs, outputs and page faults, without its newline. -/
def TimeReport.pageText (r : TimeReport) : List Char :=
  [decimal r.inputs, "inputs+".toList, decimal r.outputs, "outputs (".toList, decimal r.major,
    "major+".toList, decimal r.minor, "minor)pagefaults ".toList, decimal r.swaps,
    "swaps".toList].flatten

def TimeReport.pageLine (r : TimeReport) : List Char :=
  r.pageText ++ ['\n']

/-- The line about a program that has failed, with its text behind the first word. -/
def commandLine (text : List Char) : List Char :=
  "Command".toList ++ text ++ ['\n']

/-! ## The reader -/

/-- The number that Perl takes a text for which holds digits, another character and digits:
a fraction, a power of ten, or what is in front of the other character. -/
def perlNumber (text : List Char) : ℚ :=
  let whole := text.takeWhile Char.isDigit
  match text.dropWhile Char.isDigit with
  | [] => digitsValue whole
  | c :: rest =>
    let digits := rest.takeWhile Char.isDigit
    if c = '.' then digitsValue (whole ++ digits) / 10 ^ digits.length
    else if c = 'e' ∨ c = 'E' then digitsValue whole * 10 ^ digitsValue digits
    else digitsValue whole

/-- `\s`. -/
def isSpace (c : Char) : Bool :=
  c == ' ' || (9 ≤ c.toNat && c.toNat ≤ 13)

/-- `(\d+\.\d+)`. -/
def decimalPattern : Pattern :=
  .group (.seq .digits (.seq (.word ".".toList) .digits))

/-- `(\d+.\d+)`. -/
def elapsedPattern : Pattern :=
  .group (.seq .digits (.seq (.char Pattern.notNewline) .digits))

/-- `(\d+\.\d+)user\s(\d+\.\d+)system\s0:(\d+.\d+)elapsed\s(\d+)%CPU`. -/
def timePattern : Pattern :=
  .seq decimalPattern <| .seq (.word "user".toList) <| .seq (.char isSpace) <|
  .seq decimalPattern <| .seq (.word "system".toList) <| .seq (.char isSpace) <|
  .seq (.word "0:".toList) <| .seq elapsedPattern <| .seq (.word "elapsed".toList) <|
  .seq (.char isSpace) <| .seq (.group .digits) (.word "%CPU".toList)

/-- `$usr`, `$sys`, `$total` and `$cpu`. -/
structure Usage where
  usr : ℚ
  sys : ℚ
  total : ℚ
  cpu : ℚ
  deriving DecidableEq

/-- What the pattern finds in a line, if it matches. -/
def parseUsage (line : List Char) : Option Usage :=
  match timePattern.search line with
  | some [usr, sys, total, cpu] =>
    some
      { usr := perlNumber usr, sys := perlNumber sys, total := perlNumber total
        cpu := perlNumber cpu }
  | _ => none

/-! ## What is written is found -/

section Found

variable {ds es rest : List Char}

theorem perlNumber_digits (hds : IsDigits ds) : perlNumber ds = digitsValue ds := by
  have htake := @takeWhile_digits ds [] hds (by simp)
  have hdrop := @dropWhile_digits ds [] hds (by simp)
  rw [List.append_nil] at htake hdrop
  simp [perlNumber, htake, hdrop]

theorem perlNumber_point (hds : IsDigits ds) (hes : IsDigits es) :
    perlNumber (ds ++ ".".toList ++ es) = digitsValue (ds ++ es) / 10 ^ es.length := by
  have hpoint : ∀ c ∈ ('.' :: es).head?, c.isDigit = false := by
    rintro c ⟨⟩
    rfl
  have htail := @takeWhile_digits es [] hes (by simp)
  rw [List.append_nil] at htail
  have htext : ds ++ ".".toList ++ es = ds ++ '.' :: es := by simp
  rw [htext, perlNumber, takeWhile_digits hds hpoint, dropWhile_digits hds hpoint]
  simp [htail]

theorem perlNumber_hundredths (n : Nat) : perlNumber (hundredths n) = n / 100 := by
  have hlength : (padded 2 (n % 100)).length = 2 := length_padded (by decide) (by omega)
  have hvalue : 10 ^ 2 * (n / 100) + n % 100 = n := by omega
  rw [hundredths, perlNumber_point (isDigits_decimal _) (isDigits_padded _ _),
    digitsValue_append, digitsValue_decimal, digitsValue_padded, hlength, hvalue]
  norm_num

theorem perlNumber_elapsedSeconds (n : Nat) : perlNumber (elapsedSeconds n) = n / 100 := by
  have hlength : (padded 2 (n % 100)).length = 2 := length_padded (by decide) (by omega)
  have hvalue : 10 ^ 2 * (n / 100) + n % 100 = n := by omega
  rw [elapsedSeconds, perlNumber_point (isDigits_padded _ _) (isDigits_padded _ _),
    digitsValue_append, digitsValue_padded, digitsValue_padded, hlength, hvalue]
  norm_num

theorem first_digits (hds : IsDigits ds) (hrest : ∀ c ∈ rest.head?, c.isDigit = false) :
    Pattern.digits.first (ds ++ rest) = some ([], rest) :=
  Pattern.first_plus hds.1 hds.2 hrest

theorem first_decimalPattern (hds : IsDigits ds) (hes : IsDigits es)
    (hrest : ∀ c ∈ rest.head?, c.isDigit = false) :
    decimalPattern.first (ds ++ ".".toList ++ es ++ rest) =
      some ([ds ++ ".".toList ++ es], rest) := by
  refine Pattern.first_group ?_
  rw [List.append_assoc, List.append_assoc]
  refine Pattern.first_seq (first_digits hds ?_)
    (Pattern.first_seq (Pattern.first_word _) (first_digits hes hrest))
  rintro c ⟨⟩
  rfl

theorem first_elapsedPattern (hds : IsDigits ds) (hes : IsDigits es)
    (hrest : ∀ c ∈ rest.head?, c.isDigit = false) :
    elapsedPattern.first (ds ++ ".".toList ++ es ++ rest) =
      some ([ds ++ ".".toList ++ es], rest) := by
  refine Pattern.first_group ?_
  rw [List.append_assoc, List.append_assoc]
  refine Pattern.first_seq (first_digits hds ?_)
    (Pattern.first_seq (Pattern.first_char rfl) (first_digits hes hrest))
  rintro c ⟨⟩
  rfl

theorem head_letter {word : List Char} (hword : (word.headD '0').isDigit = false) :
    ∀ c ∈ (word ++ rest).head?, c.isDigit = false := by
  cases word with
  | nil => cases hword
  | cons d word =>
    rintro c ⟨⟩
    exact hword

/-- The pattern matches at the beginning of the line, with each number in its group. -/
theorem TimeReport.search_timeLine (r : TimeReport) :
    timePattern.search r.timeLine =
      some [hundredths r.user, hundredths r.system, elapsedSeconds r.elapsed, decimal r.cpu] := by
  obtain ⟨rest, hline⟩ : ∃ rest, r.timeLine = hundredths r.user ++ ("user".toList ++
      (' ' :: (hundredths r.system ++ ("system".toList ++ (' ' :: ("0:".toList ++
        (elapsedSeconds r.elapsed ++ ("elapsed".toList ++ (' ' :: (decimal r.cpu ++
          ("%CPU".toList ++ rest))))))))))) := by
    simp only [timeLine, timeText, List.flatten_cons, List.append_assoc,
      List.cons_append]
    exact ⟨_, rfl⟩
  rw [hline]
  refine @Pattern.search_of_first _ _ _ rest ?_
  refine Pattern.first_seq (first_decimalPattern (isDigits_decimal _) (isDigits_padded _ _)
    (head_letter (by decide))) ?_
  refine Pattern.first_seq (Pattern.first_word _) (Pattern.first_seq (Pattern.first_char rfl) ?_)
  refine Pattern.first_seq (first_decimalPattern (isDigits_decimal _) (isDigits_padded _ _)
    (head_letter (by decide))) ?_
  refine Pattern.first_seq (Pattern.first_word _) (Pattern.first_seq (Pattern.first_char rfl) ?_)
  refine Pattern.first_seq (Pattern.first_word _) ?_
  refine Pattern.first_seq (first_elapsedPattern (isDigits_padded _ _) (isDigits_padded _ _)
    (head_letter (by decide))) ?_
  refine Pattern.first_seq (Pattern.first_word _) (Pattern.first_seq (Pattern.first_char rfl) ?_)
  exact Pattern.first_seq (Pattern.first_group (g := []) (first_digits (isDigits_decimal _)
    (head_letter (by decide)))) (Pattern.first_word _)

/-- What there is to be read of a report. -/
def TimeReport.usage (r : TimeReport) : Usage where
  usr := r.user / 100
  sys := r.system / 100
  total := r.elapsed / 100
  cpu := r.cpu

/-- The times of the report are read back. -/
theorem TimeReport.parseUsage_timeLine (r : TimeReport) :
    parseUsage r.timeLine = some r.usage := by
  rw [parseUsage, r.search_timeLine]
  dsimp only
  rw [perlNumber_hundredths, perlNumber_hundredths, perlNumber_elapsedSeconds,
    perlNumber_digits (isDigits_decimal _), digitsValue_decimal]
  rfl

theorem not_mem_seconds {c : Char} (hc : c.isDigit = false) (hpoint : c ∉ ".".toList) (n : Nat) :
    c ∉ hundredths n ∧ c ∉ elapsedSeconds n := by
  have hdecimal : ∀ n, c ∉ decimal n := fun n => (isDigits_decimal n).not_mem hc
  have hpadded : ∀ n, c ∉ padded 2 n := fun n => (isDigits_padded 2 n).not_mem hc
  simp only [hundredths, elapsedSeconds, List.mem_append, hdecimal, hpadded, hpoint, or_self,
    not_false_eq_true, and_self]

/-- A character that is neither a digit nor in the words of the line. -/
theorem TimeReport.not_mem_timeText (r : TimeReport) {c : Char} (hc : c.isDigit = false)
    (hwords : ∀ word ∈ [".".toList, "user".toList, [' '], "system".toList, "0:".toList,
      "elapsed".toList, "%CPU".toList, " (".toList, "avgtext+".toList, "avgdata ".toList,
      "maxresident)k".toList], c ∉ word) : c ∉ r.timeText := by
  have hdecimal : ∀ n, c ∉ decimal n := fun n => (isDigits_decimal n).not_mem hc
  simp only [List.forall_mem_cons] at hwords
  obtain ⟨hpoint, huser, hspace, hsystem, hzero, helapsed, hcpu, hparen, htext, hdata, hmax, -⟩ :=
    hwords
  have hseconds := not_mem_seconds hc hpoint
  simp only [timeText, List.flatten_cons, List.flatten_nil, List.mem_append, hseconds, huser,
    hspace, hsystem, hzero, helapsed, hcpu, hparen, htext, hdata, hmax, hdecimal,
    List.not_mem_nil, or_self, not_false_eq_true]

/-- A character that is neither a digit nor in the words of the line about inputs, outputs and
page faults. -/
theorem TimeReport.not_mem_pageLine (r : TimeReport) {c : Char} (hc : c.isDigit = false)
    (hwords : c ∉ "inputs+outputs (major+minor)pagefaults swaps\n".toList) :
    c ∉ r.pageLine := by
  have hdecimal : ∀ n, c ∉ decimal n := fun n => (isDigits_decimal n).not_mem hc
  simp at hwords
  simp [pageLine, pageText, hdecimal, hwords]

theorem TimeReport.isLine_timeLine (r : TimeReport) : IsLine r.timeLine :=
  isLine_append (r.not_mem_timeText rfl (by decide))

theorem TimeReport.isLine_pageLine (r : TimeReport) : IsLine r.pageLine := by
  have hdecimal : ∀ n, '\n' ∉ decimal n := fun n => (isDigits_decimal n).not_mem rfl
  exact isLine_append (by simp [pageText, hdecimal])

theorem isLine_commandLine {text : List Char} (h : '\n' ∉ text) : IsLine (commandLine text) :=
  isLine_append (by simp [h])

theorem command_commandLine (text : List Char) :
    (Pattern.word "Command".toList).occursIn (commandLine text) = true := by
  have hline : commandLine text = "Command".toList ++ (text ++ ['\n']) := List.append_assoc _ _ _
  rw [hline]
  exact Pattern.occursIn_word_append _ _

/-- Without a point there are no times in a line. -/
theorem parseUsage_eq_none {line : List Char} (h : '.' ∉ line) : parseUsage line = none := by
  have hpoint : (Pattern.word ".".toList).Needs '.' := Pattern.needs_word (by decide)
  have hneeds : timePattern.Needs '.' := Pattern.needs_seq_left
    (Pattern.needs_group (Pattern.needs_seq_right (Pattern.needs_seq_left hpoint)))
  rw [parseUsage, Pattern.search_eq_none_of_needs hneeds h]

end Found

end RtpBenchmarks.Results
