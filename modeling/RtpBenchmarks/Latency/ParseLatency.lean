import Mathlib.Algebra.BigOperators.Ring.List
import RtpBenchmarks.Foundation.Means
import RtpBenchmarks.Results.RunLog

set_option autoImplicit false

/-!
# Reading the results of a latency sender (`parse_latency`)

`parse_latency` adds up the four numbers of every line.  The two averages of the frame kinds are
divided by the number of rounds; the overall average is divided by the number of rounds in which
all frames arrived, although all rounds are in its sum.  The number of frames that are expected
comes from an option that is declared without a value.
-/

namespace RtpBenchmarks.Latency

open RtpBenchmarks.Foundation
open RtpBenchmarks.Means
open RtpBenchmarks.Results

/-! ## The code -/

/-- `(\d+).*intra\s(\d+\.\d+).*inter\s(\d+\.\d+).*avg\s(\d+\.\d+)`. -/
def latencyPattern : Pattern :=
  .seq (.group .digits) <|
  .seq (.star Pattern.notNewline) <| .seq (.word "intra".toList) <| .seq (.char isSpace) <|
  .seq decimalPattern <|
  .seq (.star Pattern.notNewline) <| .seq (.word "inter".toList) <| .seq (.char isSpace) <|
  .seq decimalPattern <|
  .seq (.star Pattern.notNewline) <| .seq (.word "avg".toList) <| .seq (.char isSpace)
    decimalPattern

/-- `@nums`, empty where the pattern does not match. -/
def latencyNums (line : List Char) : List ℚ :=
  match latencyPattern.search line with
  | none => []
  | some groups => groups.map perlNumber

/-- `$frames`, `$avg`, `$intra`, `$inter`, `$cnt`, `$frame_avg` and `$rounds`. -/
structure LatencyTotals where
  frames : ℚ := 0
  avg : ℚ := 0
  intra : ℚ := 0
  inter : ℚ := 0
  cnt : Nat := 0
  frameAvg : Nat := 0
  rounds : Nat := 0
  deriving DecidableEq

/-- The body of the loop over the lines. -/
def latencyStep (nframes : Nat) (t : LatencyTotals) (line : List Char) : LatencyTotals :=
  let nums := latencyNums line
  { frames := t.frames + nums.getD 0 0
    avg := t.avg + nums.getD 3 0
    intra := t.intra + nums.getD 1 0
    inter := t.inter + nums.getD 2 0
    cnt := t.cnt + 1
    frameAvg := if nums.getD 0 0 = nframes then t.frameAvg + 1 else t.frameAvg
    rounds := t.rounds + 1 }

/-- What is printed. -/
structure LatencyValues where
  frames : ℚ
  intra : ℚ
  inter : ℚ
  avg : ℚ
  deriving DecidableEq

/-- `parse_latency` on the text of the file; `none` where it dies. -/
def parseLatency (nframes : Nat) (text : List Char) : Option LatencyValues :=
  let t := (textLines text).foldl (latencyStep nframes) {}
  if t.cnt = 0 ∨ t.frameAvg = 0 ∨ nframes * t.rounds = 0 then none
  else
    some
      { frames := 100 * t.frames / (nframes * t.rounds)
        intra := t.intra / t.cnt
        inter := t.inter / t.cnt
        avg := t.avg / t.frameAvg }

/-- How a number of frames is given on the command line: not at all, as `--nframes` with the
number as the next argument, or as `--nframes=` with the number. -/
inductive NframesArg where
  | absent
  | next (n : Nat)
  | joined (n : Nat)
  deriving DecidableEq, Repr

/-- `"nframes" => \(my $nframes = 0)`: the option takes no value, so the next argument is left
alone, and a number that is joined to it makes `GetOptions` fail. -/
def getNframes : NframesArg → Option Nat
  | .absent => some 0
  | .next _ => some 1
  | .joined _ => none

/-- `parse.pl --parse latency`. -/
def mainLatency (arg : NframesArg) (text : List Char) : Option LatencyValues := do
  let nframes ← getNframes arg
  parseLatency nframes text

/-! ## The writer -/

/-- A number with six decimals, in millionths. -/
def millionths (n : Nat) : List Char :=
  decimal (n / 1000000) ++ ".".toList ++ padded 6 (n % 1000000)

/-- The line of a latency sender, with the averages in millionths. -/
structure LatencyLine where
  frames : Nat
  intra : Nat
  inter : Nat
  avg : Nat
  deriving DecidableEq, Repr

/-- `"%zu: intra %lf, inter %lf, avg %lf\n"`. -/
def LatencyLine.text (l : LatencyLine) : List Char :=
  [decimal l.frames, ": intra ".toList, millionths l.intra, ", inter ".toList,
    millionths l.inter, ", avg ".toList, millionths l.avg].flatten ++ ['\n']

/-- The text of a log. -/
def latencyText (log : List LatencyLine) : List Char :=
  (log.map LatencyLine.text).flatten

/-! ## What is written is found -/

theorem perlNumber_millionths (n : Nat) : perlNumber (millionths n) = n / 1000000 := by
  have hlength : (padded 6 (n % 1000000)).length = 6 := length_padded (by decide) (by omega)
  have hvalue : 10 ^ 6 * (n / 1000000) + n % 1000000 = n := by omega
  rw [millionths, perlNumber_point (isDigits_decimal _) (isDigits_padded _ _),
    digitsValue_append, digitsValue_decimal, digitsValue_padded, hlength, hvalue]
  norm_num

theorem not_mem_millionths {c : Char} (hc : c.isDigit = false) (hpoint : c ≠ '.') (n : Nat) :
    c ∉ millionths n := by
  have hdecimal : ∀ n, c ∉ decimal n := fun n => (isDigits_decimal n).not_mem hc
  have hpadded : ∀ n, c ∉ padded 6 n := fun n => (isDigits_padded 6 n).not_mem hc
  simp [millionths, hdecimal, hpadded, hpoint]

theorem LatencyLine.isLine_text (l : LatencyLine) : IsLine l.text := by
  have hdecimal : ∀ n, '\n' ∉ decimal n := fun n => (isDigits_decimal n).not_mem rfl
  have hmillionths : ∀ n, '\n' ∉ millionths n := not_mem_millionths rfl (by decide)
  exact isLine_append (by simp [hdecimal, hmillionths])

/-- A word and a number behind it, and what the rest of the pattern matches. -/
theorem first_number {word : List Char} {next : Pattern} (n : Nat) {rest rest' : List Char}
    {g : List (List Char)} (hrest : ∀ c ∈ rest.head?, c.isDigit = false)
    (hnext : next.first rest = some (g, rest')) :
    (Pattern.seq (.word word) (.seq (.char isSpace) (.seq decimalPattern next))).first
      (word ++ ' ' :: (millionths n ++ rest)) = some (millionths n :: g, rest') :=
  Pattern.first_seq (Pattern.first_word word) <| Pattern.first_seq (Pattern.first_char rfl) <|
    Pattern.first_seq (first_decimalPattern (isDigits_decimal _) (isDigits_padded _ _) hrest) hnext

/-- `.*` goes up to a word that does not occur again. -/
theorem first_upTo {c : Char} {word before text : List Char} {next : Pattern}
    {m : List (List Char) × List Char} (hbefore : '\n' ∉ before)
    (hm : (Pattern.seq (.word (c :: word)) next).first (c :: text) = some m)
    (hskips : (Pattern.word (c :: word)).Skips text []) :
    (Pattern.seq (.star Pattern.notNewline) (.seq (.word (c :: word)) next)).first
      (before ++ c :: text) = some m :=
  Pattern.first_star_seq (Pattern.notNewline_of_mem hbefore) hm (Pattern.skips_seq hskips) rfl

/-- The pattern matches at the beginning of the line, with each number in its group. -/
theorem LatencyLine.search_text (l : LatencyLine) :
    latencyPattern.search l.text =
      some [decimal l.frames, millionths l.intra, millionths l.inter, millionths l.avg] := by
  have hi : ∀ n, 'i' ∉ millionths n := not_mem_millionths rfl (by decide)
  have ha : ∀ n, 'a' ∉ millionths n := not_mem_millionths rfl (by decide)
  -- the text behind the first letter of each of the three words, where the word is not again
  let fromAvg := "vg ".toList ++ (millionths l.avg ++ ['\n'])
  let fromInter := "nter ".toList ++ (millionths l.inter ++ (", ".toList ++ 'a' :: fromAvg))
  let fromIntra := "ntra ".toList ++ (millionths l.intra ++ (", ".toList ++ 'i' :: fromInter))
  have havg : (Pattern.word "avg".toList).Skips fromAvg [] :=
    Pattern.skips_word (c := 'a') (by simp [fromAvg, ha])
  have hinter : (Pattern.word "inter".toList).Skips fromInter [] :=
    Pattern.skips_word (c := 'i') (by simp [fromInter, fromAvg, hi])
  have hintra : (Pattern.word "intra".toList).Skips fromIntra [] := by
    refine Pattern.skips_append.mpr ⟨Pattern.skips_word (by decide), ?_⟩
    refine Pattern.skips_append.mpr ⟨Pattern.skips_word (hi l.intra), ?_⟩
    refine Pattern.skips_append.mpr ⟨Pattern.skips_word (by decide), .cons rfl ?_⟩
    exact Pattern.skips_word (c := 'i') (by simp [fromInter, fromAvg, hi])
  have htext : l.text = decimal l.frames ++ (": ".toList ++ 'i' :: fromIntra) := by
    simp [LatencyLine.text, fromIntra, fromInter, fromAvg]
  have hlast : ∀ c ∈ ['\n'].head?, c.isDigit = false := by
    rintro c ⟨⟩
    rfl
  rw [htext]
  refine @Pattern.search_of_first _ _ _ ['\n'] ?_
  refine Pattern.first_seq (Pattern.first_group (g := [])
    (first_digits (isDigits_decimal l.frames) (by rintro c ⟨⟩; rfl))) ?_
  refine first_upTo (by decide) (first_number l.intra (by rintro c ⟨⟩; rfl) ?_) hintra
  refine first_upTo (by decide) (first_number l.inter (by rintro c ⟨⟩; rfl) ?_) hinter
  refine first_upTo (by decide) ?_ havg
  exact Pattern.first_seq (Pattern.first_word "avg".toList) <|
    Pattern.first_seq (Pattern.first_char rfl) <|
    first_decimalPattern (isDigits_decimal _) (isDigits_padded _ _) hlast

theorem LatencyLine.latencyNums_text (l : LatencyLine) :
    latencyNums l.text =
      [(l.frames : ℚ), l.intra / 1000000, l.inter / 1000000, l.avg / 1000000] := by
  rw [latencyNums, l.search_text]
  simp only [List.map_cons, List.map_nil, perlNumber_digits (isDigits_decimal _),
    digitsValue_decimal, perlNumber_millionths]

/-! ## What is printed -/

/-- The sum of a column. -/
def columnSum (f : LatencyLine → Nat) (log : List LatencyLine) : ℚ :=
  (log.map fun l => (f l : ℚ)).sum

/-- The number of rounds in which so many frames arrived. -/
def fullRounds (nframes : Nat) (log : List LatencyLine) : Nat :=
  log.countP fun l => l.frames == nframes

theorem foldl_latencyStep (nframes : Nat) (log : List LatencyLine) (t : LatencyTotals) :
    (log.map LatencyLine.text).foldl (latencyStep nframes) t =
      { frames := t.frames + columnSum (·.frames) log
        avg := t.avg + columnSum (·.avg) log / 1000000
        intra := t.intra + columnSum (·.intra) log / 1000000
        inter := t.inter + columnSum (·.inter) log / 1000000
        cnt := t.cnt + log.length
        frameAvg := t.frameAvg + fullRounds nframes log
        rounds := t.rounds + log.length } := by
  induction log generalizing t with
  | nil => simp [columnSum, fullRounds]
  | cons l log ih =>
    rw [List.map_cons, List.foldl_cons, ih, latencyStep, l.latencyNums_text]
    simp only [columnSum, fullRounds, List.map_cons, List.sum_cons, List.length_cons,
      List.countP_cons, List.getD_cons_zero, List.getD_cons_succ, Nat.cast_inj, beq_iff_eq]
    congr 1
    · ring
    · ring
    · ring
    · ring
    · omega
    · split_ifs <;> omega
    · omega

theorem textLines_latencyText (log : List LatencyLine) :
    textLines (latencyText log) = log.map LatencyLine.text := by
  refine textLines_flatten fun line hline => ?_
  obtain ⟨l, -, rfl⟩ := List.mem_map.mp hline
  exact l.isLine_text

section Printed

variable {log : List LatencyLine}

theorem fullRounds_ne_zero {nframes : Nat} :
    fullRounds nframes log ≠ 0 ↔ ∃ l ∈ log, l.frames = nframes := by
  rw [← Nat.pos_iff_ne_zero, fullRounds, List.countP_pos_iff]
  simp only [beq_iff_eq]

theorem fullRounds_eq_length {nframes : Nat} :
    fullRounds nframes log = log.length ↔ ∀ l ∈ log, l.frames = nframes := by
  rw [fullRounds, List.countP_eq_length]
  simp only [beq_iff_eq]

theorem columnSum_eq_zero (f : LatencyLine → Nat) :
    columnSum f log = 0 ↔ ∀ l ∈ log, f l = 0 := by
  have hnonneg : ∀ l ∈ log, (0 : ℚ) ≤ (f l : ℚ) := fun l _ => Nat.cast_nonneg (f l)
  have hzero := sum_map_eq_iff_of_le (f := fun _ => (0 : ℚ)) hnonneg
  rw [List.map_const', List.sum_replicate, nsmul_zero] at hzero
  rw [columnSum, eq_comm, hzero]
  exact forall₂_congr fun l _ => by rw [eq_comm, Nat.cast_eq_zero]

/-- What should be printed when so many frames are expected. -/
def wantedValues (expected : Nat) (log : List LatencyLine) : LatencyValues where
  frames := 100 * columnSum (·.frames) log / (expected * log.length)
  intra := mean (log.map fun l => (l.intra : ℚ) / 1000000)
  inter := mean (log.map fun l => (l.inter : ℚ) / 1000000)
  avg := mean (log.map fun l => (l.avg : ℚ) / 1000000)

/-- In some round all frames arrived, and in the others too unless all overall averages are
zero. -/
structure RoundsFull (nframes : Nat) (log : List LatencyLine) : Prop where
  nframes_ne_zero : nframes ≠ 0
  some_full : ∃ l ∈ log, l.frames = nframes
  all_full : (∀ l ∈ log, l.frames = nframes) ∨ ∀ l ∈ log, l.avg = 0

theorem mean_column (f : LatencyLine → Nat) (log : List LatencyLine) :
    mean (log.map fun l => (f l : ℚ) / 1000000) = columnSum f log / 1000000 / log.length := by
  simp only [mean, List.length_map, columnSum, div_eq_mul_inv, List.sum_map_mul_right]

/-- What is printed for a log that is not empty. -/
theorem parseLatency_latencyText (hlog : log ≠ []) (nframes : Nat) :
    parseLatency nframes (latencyText log) =
      if nframes = 0 ∨ fullRounds nframes log = 0 then none
      else
        some { wantedValues nframes log with
          avg := columnSum (·.avg) log / 1000000 / fullRounds nframes log } := by
  have hlength : log.length ≠ 0 := (List.length_pos_of_ne_nil hlog).ne'
  have hdies : (log.length = 0 ∨ fullRounds nframes log = 0 ∨ nframes * log.length = 0) ↔
      nframes = 0 ∨ fullRounds nframes log = 0 := by
    rw [Nat.mul_eq_zero]
    tauto
  rw [parseLatency, textLines_latencyText, foldl_latencyStep]
  simp only [zero_add, hdies, wantedValues, mean_column]

/-- The division of the sum over all rounds by the number of full rounds is the mean if all
rounds are full or there is nothing to divide. -/
theorem avg_eq_mean_iff (hlog : log ≠ []) {nframes : Nat} (hfull : fullRounds nframes log ≠ 0) :
    columnSum (·.avg) log / 1000000 / fullRounds nframes log =
        mean (log.map fun l => (l.avg : ℚ) / 1000000) ↔
      (∀ l ∈ log, l.frames = nframes) ∨ ∀ l ∈ log, l.avg = 0 := by
  have hlength : (log.length : ℚ) ≠ 0 :=
    Nat.cast_ne_zero.mpr (List.length_pos_of_ne_nil hlog).ne'
  have hcount : (fullRounds nframes log : ℚ) ≠ 0 := Nat.cast_ne_zero.mpr hfull
  have hmillion : columnSum (·.avg) log / 1000000 = 0 ↔ ∀ l ∈ log, l.avg = 0 := by
    rw [div_eq_zero_iff, or_iff_left (by norm_num), columnSum_eq_zero]
  rw [mean_column, div_eq_div_iff hcount hlength, mul_eq_mul_left_iff, Nat.cast_inj, hmillion,
    eq_comm, fullRounds_eq_length]

theorem parseLatency_eq_wanted_iff (hlog : log ≠ []) (nframes : Nat) :
    parseLatency nframes (latencyText log) = some (wantedValues nframes log) ↔
      RoundsFull nframes log := by
  rw [parseLatency_latencyText hlog]
  split_ifs with hdies
  · refine iff_of_false (fun h => nomatch h) fun h => ?_
    rcases hdies with hzero | hfull
    · exact h.nframes_ne_zero hzero
    · exact fullRounds_ne_zero.mpr h.some_full hfull
  · obtain ⟨hzero, hfull⟩ := not_or.mp hdies
    have havg := avg_eq_mean_iff hlog hfull
    constructor
    · intro h
      have hvalues := congrArg LatencyValues.avg (Option.some.inj h)
      exact ⟨hzero, fullRounds_ne_zero.mp hfull, havg.mp hvalues⟩
    · intro h
      rw [havg.mpr h.all_full]
      rfl

/-- Whatever number is given with the option, one frame is expected. -/
theorem mainLatency_eq_wanted_iff (hlog : log ≠ []) (expected : Nat) :
    mainLatency (.next expected) (latencyText log) = some (wantedValues expected log) ↔
      expected = 1 ∧ RoundsFull 1 log := by
  have hmain : mainLatency (.next expected) (latencyText log) =
      parseLatency 1 (latencyText log) := rfl
  rw [hmain]
  constructor
  · intro h
    have hone : expected = 1 := by
      rw [parseLatency_latencyText hlog] at h
      have hdies : ¬ (1 = 0 ∨ fullRounds 1 log = 0) := fun hdies => by
        rw [if_pos hdies] at h
        cases h
      rw [if_neg hdies] at h
      have hsome := fullRounds_ne_zero.mp (not_or.mp hdies).2
      have hframes := congrArg LatencyValues.frames (Option.some.inj h)
      have hsum : columnSum (·.frames) log ≠ 0 := by
        rw [Ne, columnSum_eq_zero]
        obtain ⟨l, hl, hl1⟩ := hsome
        intro hall
        have hzero := hall l hl
        omega
      have hlength : (log.length : ℚ) ≠ 0 :=
        Nat.cast_ne_zero.mpr (List.length_pos_of_ne_nil hlog).ne'
      simp only [wantedValues, Nat.cast_one, one_mul] at hframes
      by_cases hexpected : (expected : ℚ) = 0
      · rw [hexpected, zero_mul, div_zero] at hframes
        exact absurd hframes (div_ne_zero (mul_ne_zero (by norm_num) hsum) hlength)
      · rw [div_eq_div_iff hlength (mul_ne_zero hexpected hlength)] at hframes
        have hmul := mul_left_cancel₀ (mul_ne_zero (by norm_num) hsum) hframes
        have hcancel := mul_right_cancel₀ hlength (hmul.trans (one_mul _).symm)
        exact Nat.cast_eq_one.mp hcancel
    rw [hone, parseLatency_eq_wanted_iff hlog] at h
    exact ⟨hone, h⟩
  · rintro ⟨rfl, hfull⟩
    exact (parseLatency_eq_wanted_iff hlog 1).mpr hfull

/-- A number that is joined to the option ends the program. -/
theorem mainLatency_joined (expected : Nat) (text : List Char) :
    mainLatency (.joined expected) text = none :=
  rfl

/-- The means and the completed share are printed, for a number of frames that the function is
given, exactly when all rounds are full, or one of them is and all overall averages are zero.  For
a number that is given to the option they are only if it is one and follows as an argument of its
own. -/
theorem parseLatency_means_iff (hlog : log ≠ []) (expected : Nat) :
    (parseLatency expected (latencyText log) = some (wantedValues expected log) ↔
        RoundsFull expected log) ∧
      ∀ arg, arg = .next expected ∨ arg = .joined expected →
        (mainLatency arg (latencyText log) = some (wantedValues expected log) ↔
          arg = .next 1 ∧ RoundsFull 1 log) := by
  refine ⟨parseLatency_eq_wanted_iff hlog expected, ?_⟩
  rintro arg (rfl | rfl)
  · rw [mainLatency_eq_wanted_iff hlog, NframesArg.next.injEq]
  · rw [mainLatency_joined]
    exact iff_of_false (fun h => nomatch h) fun h => nomatch h.1

end Printed

/-! ## A round in which frames are lost -/

/-- Two rounds of all 602 frames. -/
def fullLog : List LatencyLine :=
  [{ frames := 602, intra := 9000000, inter := 3000000, avg := 4000000 },
    { frames := 602, intra := 9000000, inter := 3000000, avg := 6000000 }]

theorem parseLatency_means_iff_full :
    parseLatency 602 (latencyText fullLog) = some (wantedValues 602 fullLog) ∧
      mainLatency (.next 602) (latencyText fullLog) ≠ some (wantedValues 602 fullLog) := by
  obtain ⟨hfunction, hmain⟩ := @parseLatency_means_iff fullLog (by decide) 602
  refine ⟨hfunction.mpr ⟨by decide, by decide, .inl (by decide)⟩, fun h => ?_⟩
  exact absurd ((hmain _ (.inl rfl)).mp h).1 (by decide)

/-- Two rounds, of which one has lost two frames. -/
def lossyLog : List LatencyLine :=
  [{ frames := 602, intra := 9000000, inter := 3000000, avg := 4000000 },
    { frames := 600, intra := 9000000, inter := 3000000, avg := 6000000 }]

/-- The sum of the overall averages is divided by the one full round, and from the command line
by no round at all. -/
theorem parseLatency_not_means :
    (parseLatency 602 (latencyText lossyLog)).map LatencyValues.avg = some 10 ∧
      (wantedValues 602 lossyLog).avg = 5 ∧
      mainLatency (.next 602) (latencyText lossyLog) = none := by
  have hlog : lossyLog ≠ [] := by decide
  have hmain : mainLatency (.next 602) (latencyText lossyLog) =
      parseLatency 1 (latencyText lossyLog) := rfl
  refine ⟨?_, ?_, ?_⟩
  · rw [parseLatency_latencyText hlog, if_neg (by decide)]
    norm_num [columnSum, fullRounds, lossyLog]
  · norm_num [wantedValues, mean, lossyLog]
  · rw [hmain, parseLatency_latencyText hlog, if_pos (by decide)]

end RtpBenchmarks.Latency
