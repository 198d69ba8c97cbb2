import RtpBenchmarks.Foundation.Pattern
import RtpBenchmarks.Scripts.FpsVals
import RtpBenchmarks.Scripts.Schedule

set_option autoImplicit false

/-!
# Names of result files (`benchmark.pl`, `parse.pl`)

`benchmark.pl` puts the configuration of a run into the name of its result file; `parse.pl`
finds it there with regular expressions.  The frame rate is a floating-point option or any text
of a list on the one side and `\d+` on the other.
-/

namespace RtpBenchmarks.Results

open RtpBenchmarks.Foundation
open RtpBenchmarks.Scripts

/-! ## The reader -/

/-- `/(\d+)threads_(\d+)fps_(\d+)rounds/`. -/
def namePattern : Pattern :=
  .seq (.group .digits) <| .seq (.word "threads_".toList) <| .seq (.group .digits) <|
  .seq (.word "fps_".toList) <| .seq (.group .digits) (.word "rounds".toList)

/-- What is found in the name of a file. -/
structure ResultName where
  role : List Char
  threads : Nat
  fps : List Char
  rounds : Nat
  deriving DecidableEq, Repr

/-- What `parse_csv` and `parse` take from the name of a file; `none` where they do not find it. -/
def csvName (filename : List Char) : Option ResultName :=
  if (Pattern.alt (.word "recv".toList) (.word "send".toList)).occursIn filename then
    match namePattern.search filename with
    | some [threads, fps, rounds] =>
      some
        { role := if (Pattern.word "recv".toList).occursIn filename then "recv".toList
            else "send".toList
          threads := digitsValue threads
          fps
          rounds := digitsValue rounds }
    | _ => none
  else none

/-- `/.*(recv|send).*/i`. -/
def rolePattern : Pattern :=
  .seq (.star Pattern.notNewline) <|
  .seq (.group (.alt (.wordAnyCase "recv".toList) (.wordAnyCase "send".toList)))
    (.star Pattern.notNewline)

/-- `/.*_(\d+)$unit.*/i`. -/
def numberPattern (unit : String) : Pattern :=
  .seq (.star Pattern.notNewline) <| .seq (.wordAnyCase "_".toList) <|
  .seq (.group .digits) <| .seq (.wordAnyCase unit.toList) (.star Pattern.notNewline)

/-- `/.*_(\d+)threads.*/i`. -/
def threadsPattern : Pattern :=
  numberPattern "threads"

/-- `/.*_(\d+)rounds.*/i`. -/
def roundsPattern : Pattern :=
  numberPattern "rounds"

/-- What is found in a path. -/
structure PathName where
  role : List Char
  threads : Nat
  rounds : Nat
  deriving DecidableEq, Repr

/-- What the script takes from the path of a file for the options that are not given. -/
def mainName (path : List Char) : Option PathName :=
  match rolePattern.search path, threadsPattern.search path, roundsPattern.search path with
  | some [role], some [threads], some [rounds] =>
    some { role, threads := digitsValue threads, rounds := digitsValue rounds }
  | _, _, _ => none

/-! ## The runs of a benchmark -/

/-- The formats that `benchmark.pl` accepts. -/
def formats : List String :=
  ["hevc", "vvc", "h265", "h266", "atlas", "vpcc"]

/-- The roles in the names of result files. -/
def roles : List String :=
  ["send", "recv"]

/-- A program that is run for all rounds with a thread count and a frame rate. -/
structure NamedRun where
  exec : List Char
  thread : Nat
  fps : List Char
  deriving DecidableEq, Repr

/-- The runs of a benchmark with a list of programs. -/
def namedRuns (execs : List (List Char)) (b : Benchmark) : List NamedRun :=
  execs.flatMap fun exec =>
    (oneTo b.threads).flatMap fun thread => b.fpsVals.map fun fps => { exec, thread, fps }

/-- `$logname` of a run. -/
def NamedRun.logname (role : String) (b : Benchmark) (run : NamedRun) : List Char :=
  Scripts.logname role b run.thread run.fps

/-- `$logname` of `recv_generic`. -/
def genericLogname (thread : Nat) (fps : List Char) : List Char :=
  "recv_results_".toList ++ decimal thread ++ "threads_".toList ++ fps ++ "fps".toList

/-- The files that a script starts anew. -/
def unlinked (script : List Action) : List (List Char) :=
  script.filterMap fun
    | .unlink file => some file
    | _ => none

/-- The files that a script extends by itself. -/
def appended (script : List Action) : List (List Char) :=
  script.filterMap fun
    | .append file => some file
    | _ => none

/-- The path of a result file. -/
def resultPath (lib name : List Char) : List Char :=
  lib ++ "/results/".toList ++ name

section Runs

variable (b : Benchmark)

theorem flatMap_none {α β : Type} (xs : List α) : (xs.flatMap fun _ => ([] : List β)) = [] :=
  List.flatMap_eq_nil_iff.mpr fun _ _ => rfl

/-- The scripts have one result file for each of these runs. -/
theorem unlinked_sendLoops :
    unlinked (sendLoops b) =
      (namedRuns b.sendExecs b).map fun run => resultPath b.lib (run.logname "send" b) := by
  simp only [unlinked, sendLoops, namedRuns, List.map_eq_flatMap]
  cases b.genRecv <;>
    simp [List.filterMap_flatMap, List.flatMap_assoc, resultFile, resultPath, NamedRun.logname,
      flatMap_none]

theorem unlinked_recvLoops (receiver : String) :
    unlinked (recvLoops receiver b) =
      (namedRuns b.recvExecs b).map fun run => resultPath b.lib (run.logname "recv" b) := by
  simp only [unlinked, recvLoops, namedRuns, List.map_eq_flatMap]
  simp [List.filterMap_flatMap, List.flatMap_assoc, resultFile, resultPath, NamedRun.logname,
    flatMap_none]

theorem appended_recvGeneric :
    appended (recvGeneric b) = (netcatSchedule b.fpsVals b.threads).map fun run =>
      resultPath b.lib (genericLogname run.thread run.fps) := by
  unfold recvGeneric
  generalize netcatPorts b.threads = ports
  induction b.threads with
  | zero => rfl
  | succ threads ih =>
    rw [recvGenericLoop, netcatSchedule, List.map_append, ← ih, List.map_map, List.map_eq_flatMap,
      appended, List.filterMap_append, List.filterMap_flatMap]
    rfl

end Runs

/-! ## Names that are recognised -/

/-- The name of a file and the paths to it give the role, the thread count, the frame rate and
the rounds. -/
def Recognised (role : String) (thread : Nat) (fps : List Char) (rounds : Nat)
    (name : List Char) : Prop :=
  csvName name = some { role := role.toList, threads := thread, fps, rounds } ∧
    ∀ dir, '\n' ∉ dir →
      mainName (dir ++ name) = some { role := role.toList, threads := thread, rounds }

section Recognition

variable {role : String} {b : Benchmark} {thread : Nat} {fps : List Char}

/-- The name up to the thread count. -/
def namePrefix (role : String) (b : Benchmark) : List Char :=
  role.toList ++ "_".toList ++ b.format ++ (if b.srtp then "_SRTP" else "_RTP").toList

/-- The name from the thread count on. -/
def nameSuffix (b : Benchmark) (thread : Nat) (fps : List Char) : List Char :=
  decimal thread ++ ("threads_".toList ++ (fps ++ ("fps_".toList ++
    (decimal b.iter ++ "rounds".toList))))

theorem logname_eq (role : String) (b : Benchmark) (thread : Nat) (fps : List Char) :
    logname role b thread fps = namePrefix role b ++ '_' :: nameSuffix b thread fps := by
  simp only [logname, namePrefix, nameSuffix, List.append_assoc]
  rfl

/-- Nothing in the prefix looks like a thread count, whatever is to follow it. -/
theorem skips_namePrefix (hrole : role ∈ roles) (hformat : b.format ∈ formats.map String.toList)
    (next : Pattern) (rest : List Char) :
    (Pattern.seq (.group .digits) (.seq (.word "threads_".toList) next)).Skips
      (namePrefix role b ++ ['_']) rest := by
  have hends : ∀ role ∈ roles, ∀ format ∈ formats.map String.toList, ∀ srtp : Bool,
      Pattern.runsEndOff Char.isDigit 't' (role.toList ++ "_".toList ++ format ++
        (if srtp then "_SRTP" else "_RTP").toList ++ ['_']) = true := by
    decide
  exact Pattern.skips_group_plus_word rfl (hends role hrole b.format hformat b.srtp)

/-- Digits in front of a character that is none are taken whole by their group. -/
theorem first_digits_group {digits rest : List Char} (hdigits : IsDigits digits)
    (hrest : ∀ c ∈ rest.head?, c.isDigit = false) :
    (Pattern.group .digits).first (digits ++ rest) = some ([digits], rest) :=
  Pattern.first_group (Pattern.first_plus hdigits.1 hdigits.2 hrest)

/-- A name with a frame rate of digits is taken apart. -/
theorem search_logname (hrole : role ∈ roles) (hformat : b.format ∈ formats.map String.toList)
    (hfps : IsDigits fps) :
    namePattern.search (logname role b thread fps) =
      some [decimal thread, fps, decimal b.iter] := by
  have hsplit : logname role b thread fps =
      (namePrefix role b ++ ['_']) ++ nameSuffix b thread fps := by
    rw [logname_eq, List.append_assoc]
    rfl
  have hend : "rounds".toList = "rounds".toList ++ [] := (List.append_nil _).symm
  rw [hsplit, namePattern, Pattern.search_skips (skips_namePrefix hrole hformat _ _), nameSuffix,
    hend]
  refine @Pattern.search_of_first _ _ _ [] ?_
  refine Pattern.first_seq (first_digits_group (isDigits_decimal thread) (by rintro c ⟨⟩; rfl)) ?_
  refine Pattern.first_seq (Pattern.first_word _) ?_
  refine Pattern.first_seq (first_digits_group hfps (by rintro c ⟨⟩; rfl)) ?_
  refine Pattern.first_seq (Pattern.first_word _) ?_
  exact Pattern.first_seq (first_digits_group (isDigits_decimal b.iter) (by rintro c ⟨⟩; rfl))
    (Pattern.first_word _)

/-- What the groups hold are digits. -/
theorem records_namePattern : namePattern.Records IsDigits :=
  Pattern.records_seq (Pattern.records_group_plus _) <|
  Pattern.records_seq (Pattern.records_word _) <|
  Pattern.records_seq (Pattern.records_group_plus _) <|
  Pattern.records_seq (Pattern.records_word _) <|
  Pattern.records_seq (Pattern.records_group_plus _) (Pattern.records_word _)

theorem isDigits_of_csvName {name : List Char} {found : ResultName}
    (h : csvName name = some found) : IsDigits found.fps := by
  unfold csvName at h
  split at h
  · split at h
    · rename_i threads fps rounds hsearch
      obtain rfl := Option.some.inj h
      exact Pattern.forall_of_search records_namePattern hsearch fps (by simp)
    · cases h
  · cases h

/-- No letter is taken for a digit. -/
theorem not_same_digit {c d : Char} (hc : c.toLower.isDigit = false) (hd : d.isDigit = true) :
    (c.toLower == d.toLower) = false := by
  rw [toLower_of_isDigit hd]
  exact beq_eq_false_iff_ne.mpr fun h => by rw [h, hd] at hc; cases hc

/-- Behind the first letter of the prefix nothing looks like a role. -/
theorem skips_roleTail : ∀ word ∈ roles, ∀ role ∈ roles, ∀ format ∈ formats, ∀ srtp : Bool,
    ∀ rest, (Pattern.wordAnyCase word.toList).Skips
      (role.toList ++ "_".toList ++ format.toList ++ (if srtp then "_SRTP" else "_RTP").toList ++
        ['_']).tail rest := by
  simp [roles, formats, Pattern.wordAnyCase, Pattern.wordBy, Pattern.results]

theorem skips_nameSuffix {word : String} (hword : word ∈ roles) (b : Benchmark) (thread : Nat)
    (hfps : IsDigits fps) :
    (Pattern.wordAnyCase word.toList).Skips (nameSuffix b thread fps) [] := by
  obtain ⟨c, tail, hcons, hc⟩ : ∃ c tail, word.toList = c :: tail ∧ c.toLower.isDigit = false := by
    revert word
    simp [roles]
  have hdigits {digits : List Char} (h : IsDigits digits) (rest : List Char) :
      (Pattern.wordAnyCase word.toList).Skips digits rest := by
    rw [hcons]
    exact Pattern.skips_wordBy fun d hd => not_same_digit hc (h.2 d hd)
  have hwords : (∀ rest, (Pattern.wordAnyCase word.toList).Skips "threads_".toList rest) ∧
      (∀ rest, (Pattern.wordAnyCase word.toList).Skips "fps_".toList rest) ∧
      (Pattern.wordAnyCase word.toList).Skips "rounds".toList [] := by
    clear hdigits
    revert word
    simp [roles, Pattern.wordAnyCase, Pattern.wordBy, Pattern.results]
  obtain ⟨hthreads, hfpsWord, hrounds⟩ := hwords
  refine Pattern.skips_append.mpr ⟨hdigits (isDigits_decimal thread) _, ?_⟩
  refine Pattern.skips_append.mpr ⟨hthreads _, Pattern.skips_append.mpr ⟨hdigits hfps _, ?_⟩⟩
  refine Pattern.skips_append.mpr ⟨hfpsWord _, ?_⟩
  exact Pattern.skips_append.mpr ⟨hdigits (isDigits_decimal b.iter) _, hrounds⟩

/-- A name begins with its role and nothing behind its first letter looks like one. -/
theorem skips_tail_logname {word : String} (hword : word ∈ roles) (hrole : role ∈ roles)
    (hformat : b.format ∈ formats.map String.toList) (thread : Nat) (hfps : IsDigits fps) :
    (Pattern.wordAnyCase word.toList).Skips (logname role b thread fps).tail [] := by
  obtain ⟨format, hmem, hb⟩ := List.mem_map.mp hformat
  have hbefore := skips_roleTail word hword role hrole format hmem b.srtp
  have htail : (logname role b thread fps).tail = (role.toList ++ "_".toList ++ format.toList ++
      (if b.srtp then "_SRTP" else "_RTP").toList ++ ['_']).tail ++ nameSuffix b thread fps := by
    rw [← List.tail_append_of_ne_nil (by simp), hb, logname_eq, namePrefix,
      List.append_assoc _ ['_']]
    rfl
  rw [htail]
  exact Pattern.skips_append.mpr ⟨hbefore _, skips_nameSuffix hword b thread hfps⟩

theorem exists_logname_eq (role : String) (b : Benchmark) (thread : Nat) (fps : List Char) :
    ∃ rest, logname role b thread fps = role.toList ++ rest := by
  simp only [logname, List.append_assoc]
  exact ⟨_, rfl⟩

/-- The only role in a name is its own. -/
theorem occursIn_word_role {word : String} (hword : word ∈ roles) (hrole : role ∈ roles)
    (hformat : b.format ∈ formats.map String.toList) (thread : Nat) (hfps : IsDigits fps) :
    (Pattern.word word.toList).occursIn (logname role b thread fps) = (role == word) := by
  obtain ⟨rest, hrest⟩ := exists_logname_eq role b thread fps
  by_cases heq : role = word
  · subst heq
    rw [hrest, Pattern.occursIn_word_append, beq_self_eq_true]
  · have hskips := skips_tail_logname hword hrole hformat thread hfps
    rw [beq_eq_false_iff_ne.mpr heq]
    rw [hrest] at hskips ⊢
    simp only [roles, List.mem_cons, List.not_mem_nil, or_false] at hword hrole
    rcases hword with rfl | rfl <;> rcases hrole with rfl | rfl
    · exact absurd rfl heq
    · exact Pattern.not_occursIn_of_skips (.cons rfl (Pattern.skips_word_of_anyCase hskips)) rfl
    · exact Pattern.not_occursIn_of_skips (.cons rfl (Pattern.skips_word_of_anyCase hskips)) rfl
    · exact absurd rfl heq

theorem occursIn_role (hrole : role ∈ roles) (hformat : b.format ∈ formats.map String.toList)
    (thread : Nat) (hfps : IsDigits fps) :
    (Pattern.word "recv".toList).occursIn (logname role b thread fps) = (role == "recv") ∧
      (Pattern.alt (.word "recv".toList) (.word "send".toList)).occursIn
        (logname role b thread fps) = true := by
  have hrecv := @occursIn_word_role role b fps "recv" (by decide) hrole hformat thread hfps
  have hsend := @occursIn_word_role role b fps "send" (by decide) hrole hformat thread hfps
  refine ⟨hrecv, ?_⟩
  rw [Pattern.occursIn_alt, hrecv, hsend]
  rcases List.mem_cons.mp hrole with rfl | hrole
  · rfl
  · obtain rfl := List.mem_singleton.mp hrole
    rfl

theorem csvName_logname (hrole : role ∈ roles)
    (hformat : b.format ∈ formats.map String.toList) (thread : Nat) (hfps : IsDigits fps) :
    csvName (logname role b thread fps) =
      some { role := role.toList, threads := thread, fps, rounds := b.iter } := by
  obtain ⟨hrecv, hfound⟩ := occursIn_role hrole hformat thread hfps
  rw [csvName, hfound, if_pos rfl, search_logname hrole hformat hfps, hrecv]
  dsimp only
  rw [digitsValue_decimal, digitsValue_decimal]
  rcases List.mem_cons.mp hrole with rfl | hrole
  · rfl
  · obtain rfl := List.mem_singleton.mp hrole
    rfl

theorem not_newline_logname (hrole : role ∈ roles)
    (hformat : b.format ∈ formats.map String.toList) (thread : Nat) (hfps : IsDigits fps) :
    '\n' ∉ logname role b thread fps := by
  have hdecimal : ∀ n, '\n' ∉ decimal n := fun n => (isDigits_decimal n).not_mem rfl
  have hbefore : ∀ role ∈ roles, ∀ format ∈ formats.map String.toList, ∀ srtp : Bool, '\n' ∉
      role.toList ++ "_".toList ++ format ++ (if srtp then "_SRTP" else "_RTP").toList := by
    decide
  have hname := hbefore role hrole b.format hformat b.srtp
  rw [logname_eq, namePrefix]
  simp only [nameSuffix, List.mem_append, List.mem_cons, not_or] at hname ⊢
  exact ⟨hname, by decide, hdecimal _, by decide, hfps.not_mem rfl, by decide, hdecimal _,
    by decide⟩

/-- `.*` up to the end of a text without a newline. -/
theorem first_rest {text : List Char} (h : '\n' ∉ text) :
    (Pattern.star Pattern.notNewline).first text = some ([], []) := by
  have hfirst := @Pattern.first_star _ text [] (Pattern.notNewline_of_mem h) (by rintro c ⟨⟩)
  rwa [List.append_nil] at hfirst

/-- The role in a path is the last one. -/
theorem search_rolePattern (hrole : role ∈ roles)
    (hformat : b.format ∈ formats.map String.toList) (thread : Nat) (hfps : IsDigits fps)
    {dir : List Char} (hdir : '\n' ∉ dir) :
    rolePattern.search (dir ++ logname role b thread fps) = some [role.toList] := by
  have hname := not_newline_logname hrole hformat thread hfps
  have hrecv := @skips_tail_logname role b fps "recv" (by decide) hrole hformat thread hfps
  have hsend := @skips_tail_logname role b fps "send" (by decide) hrole hformat thread hfps
  obtain ⟨rest, hrest⟩ := exists_logname_eq role b thread fps
  have hfirst : (Pattern.seq (.group (.alt (.wordAnyCase "recv".toList)
      (.wordAnyCase "send".toList))) (.star Pattern.notNewline)).first (role.toList ++ rest) =
        some ([role.toList], []) := by
    have hafter : '\n' ∉ rest := by
      rw [hrest, List.mem_append, not_or] at hname
      exact hname.2
    refine Pattern.first_seq (Pattern.first_group (g := []) ?_) (first_rest hafter)
    rcases List.mem_cons.mp hrole with rfl | hrole
    · exact Pattern.first_alt_right rfl (Pattern.first_wordAnyCase _)
    · obtain rfl := List.mem_singleton.mp hrole
      exact Pattern.first_alt_left (Pattern.first_wordAnyCase _)
  rw [hrest] at hrecv hsend ⊢
  obtain ⟨c, tail, hcons⟩ : ∃ c tail, role.toList ++ rest = c :: tail :=
    List.exists_cons_of_ne_nil (by
      rcases List.mem_cons.mp hrole with rfl | hrole
      · simp
      · obtain rfl := List.mem_singleton.mp hrole
        simp)
  rw [hcons] at hrecv hsend hfirst ⊢
  refine @Pattern.search_of_first _ _ _ []
    (Pattern.first_star_seq (Pattern.notNewline_of_mem hdir) hfirst ?_ rfl)
  exact Pattern.skips_seq (Pattern.skips_group (Pattern.skips_alt hrecv hsend))

/-- What `numberPattern` looks for behind `.*`. -/
def numberTail (unit : String) : Pattern :=
  .seq (.wordAnyCase "_".toList) <| .seq (.group .digits) <|
  .seq (.wordAnyCase unit.toList) (.star Pattern.notNewline)

/-- The number in a path is the last one with its unit. -/
theorem search_numberPattern {unit : String} {before digits after : List Char}
    (hdigits : IsDigits digits) (hunit : (unit.toList.headD '0').isDigit = false)
    (hnewline : '\n' ∉ before ++ '_' :: (digits ++ (unit.toList ++ after)))
    (hskips : (numberTail unit).Skips (digits ++ (unit.toList ++ after)) []) :
    (numberPattern unit).search (before ++ '_' :: (digits ++ (unit.toList ++ after))) =
      some [digits] := by
  have hafter : '\n' ∉ after := by
    simp only [List.mem_append, List.mem_cons, not_or] at hnewline
    exact hnewline.2.2.2.2
  have hhead : ∀ c ∈ (unit.toList ++ after).head?, c.isDigit = false := by
    cases hword : unit.toList with
    | nil =>
      rw [hword] at hunit
      cases hunit
    | cons d word =>
      rw [hword] at hunit
      rintro c ⟨⟩
      exact hunit
  have hfirst : (numberTail unit).first ('_' :: (digits ++ (unit.toList ++ after))) =
      some ([digits], []) :=
    Pattern.first_seq (Pattern.first_wordAnyCase "_".toList) <|
    Pattern.first_seq (first_digits_group hdigits hhead) <|
    Pattern.first_seq (Pattern.first_wordAnyCase _) (first_rest hafter)
  have hbefore : '\n' ∉ before := fun h => hnewline (List.mem_append_left _ h)
  exact @Pattern.search_of_first _ _ _ []
    (Pattern.first_star_seq (Pattern.notNewline_of_mem hbefore) hfirst hskips rfl)

/-- Without an underscore there is no number to look for. -/
theorem skips_numberTail {unit : String} {text rest : List Char}
    (h : ∀ d ∈ text, (('_').toLower == d.toLower) = false) : (numberTail unit).Skips text rest :=
  Pattern.skips_seq (Pattern.skips_wordBy h)

theorem skips_numberTail_digits {unit : String} {digits : List Char} (h : IsDigits digits)
    (rest : List Char) : (numberTail unit).Skips digits rest :=
  skips_numberTail fun d hd => not_same_digit rfl (h.2 d hd)

theorem skips_numberTail_word {unit : String} {word rest : List Char}
    (h : (word.all fun d => !(('_').toLower == d.toLower)) = true) :
    (numberTail unit).Skips word rest := by
  refine skips_numberTail fun d hd => ?_
  simpa only [Bool.not_eq_true'] using List.all_eq_true.mp h d hd

/-- A number with another unit. -/
theorem skips_numberTail_cons {unit : String} {c d : Char} {word digits text rest : List Char}
    (hunit : unit.toList = c :: word) (hc : c.toLower.isDigit = false) (hd : d.isDigit = false)
    (hne : (c.toLower == d.toLower) = false) (hdigits : IsDigits digits)
    (h : (numberTail unit).Skips (d :: text) rest) :
    (numberTail unit).Skips ('_' :: (digits ++ d :: text)) rest := by
  refine .cons ?_ (Pattern.skips_append.mpr ⟨skips_numberTail_digits hdigits _, h⟩)
  refine List.eq_nil_iff_forall_not_mem.mpr fun m hm => ?_
  obtain ⟨m₁, hm₁, m₂, hm₂, -⟩ := Pattern.mem_results_seq.mp hm
  have hrest : m₁.2 = digits ++ d :: (text ++ rest) := by
    have hword : (Pattern.wordAnyCase "_".toList).results
        ('_' :: ((digits ++ d :: text) ++ rest)) = [([], (digits ++ d :: text) ++ rest)] := rfl
    rw [hword] at hm₁
    obtain rfl := List.mem_singleton.mp hm₁
    simp
  rw [hrest, hunit, Pattern.digits, Pattern.wordAnyCase,
    Pattern.results_group_plus_wordBy_eq_nil hdigits.2 hd hne fun x hx => not_same_digit hc hx]
    at hm₂
  cases hm₂

theorem mainName_logname (hrole : role ∈ roles)
    (hformat : b.format ∈ formats.map String.toList) (thread : Nat) (hfps : IsDigits fps)
    {dir : List Char} (hdir : '\n' ∉ dir) :
    mainName (dir ++ logname role b thread fps) =
      some { role := role.toList, threads := thread, rounds := b.iter } := by
  have hnewline : '\n' ∉ dir ++ logname role b thread fps := by
    rw [List.mem_append, not_or]
    exact ⟨hdir, not_newline_logname hrole hformat thread hfps⟩
  have hrole := search_rolePattern hrole hformat thread hfps hdir
  have hthreads : threadsPattern.search (dir ++ logname role b thread fps) =
      some [decimal thread] := by
    have hsplit : dir ++ logname role b thread fps = (dir ++ namePrefix role b) ++ '_' ::
        (decimal thread ++ ("threads".toList ++ '_' :: (fps ++ 'f' :: ("ps".toList ++ '_' ::
          (decimal b.iter ++ 'r' :: "ounds".toList))))) := by
      rw [logname_eq, List.append_assoc]
      rfl
    rw [hsplit] at hnewline ⊢
    refine search_numberPattern (isDigits_decimal thread) rfl hnewline ?_
    refine Pattern.skips_append.mpr ⟨skips_numberTail_digits (isDigits_decimal thread) _, ?_⟩
    refine Pattern.skips_append.mpr ⟨skips_numberTail_word (by decide), ?_⟩
    refine skips_numberTail_cons rfl rfl rfl rfl hfps ?_
    have hfpsWord : (numberTail "threads").Skips ("fps".toList ++ '_' ::
        (decimal b.iter ++ 'r' :: "ounds".toList)) [] :=
      Pattern.skips_append.mpr ⟨skips_numberTail_word (by decide),
        skips_numberTail_cons rfl rfl rfl rfl (isDigits_decimal b.iter)
          (skips_numberTail_word (by decide))⟩
    exact hfpsWord
  have hrounds : roundsPattern.search (dir ++ logname role b thread fps) =
      some [decimal b.iter] := by
    have hsplit : dir ++ logname role b thread fps = (dir ++ (namePrefix role b ++ '_' ::
        (decimal thread ++ ("threads_".toList ++ (fps ++ "fps".toList))))) ++ '_' ::
          (decimal b.iter ++ ("rounds".toList ++ [])) := by
      rw [logname_eq, nameSuffix]
      simp
    rw [hsplit] at hnewline ⊢
    refine search_numberPattern (isDigits_decimal b.iter) rfl hnewline ?_
    exact Pattern.skips_append.mpr ⟨skips_numberTail_digits (isDigits_decimal b.iter) _,
      skips_numberTail_word (by decide)⟩
  rw [mainName, hrole, hthreads, hrounds]
  dsimp only
  rw [digitsValue_decimal, digitsValue_decimal]

/-- A name is recognised if and only if the frame rate in it is written in digits. -/
theorem recognised_iff (hrole : role ∈ roles) (hformat : b.format ∈ formats.map String.toList)
    (thread : Nat) :
    Recognised role thread fps b.iter (logname role b thread fps) ↔ IsDigits fps := by
  constructor
  · rintro ⟨hname, -⟩
    exact isDigits_of_csvName hname
  · intro hfps
    exact ⟨csvName_logname hrole hformat thread hfps,
      fun dir hdir => mainName_logname hrole hformat thread hfps hdir⟩

/-- Names of `recv_generic` are not recognised: there are no rounds in them. -/
theorem not_recognised_generic (thread : Nat) (fps : List Char) (rounds : Nat) :
    ¬ Recognised "recv" thread fps rounds (genericLogname thread fps) := by
  rintro ⟨hname, -⟩
  have hfps := isDigits_of_csvName hname
  have hneeds : namePattern.Needs 'o' :=
    Pattern.needs_seq_right <| Pattern.needs_seq_right <| Pattern.needs_seq_right <|
    Pattern.needs_seq_right <| Pattern.needs_seq_right (Pattern.needs_word (by decide))
  have ho : 'o' ∉ genericLogname thread fps := by
    have hwords : ∀ word ∈ ["recv_results_", "threads_", "fps"], 'o' ∉ word.toList := by decide
    simp only [List.forall_mem_cons] at hwords
    obtain ⟨hrecv, hthreads, hend, -⟩ := hwords
    have hthread : 'o' ∉ decimal thread := (isDigits_decimal thread).not_mem rfl
    have hfps : 'o' ∉ fps := hfps.not_mem rfl
    unfold genericLogname
    rw [List.mem_append, List.mem_append, List.mem_append, List.mem_append]
    exact not_or.mpr ⟨not_or.mpr ⟨not_or.mpr ⟨not_or.mpr ⟨hrecv, hthread⟩, hthreads⟩, hfps⟩, hend⟩
  rw [csvName, Pattern.search_eq_none_of_needs hneeds ho] at hname
  split at hname <;> cases hname

end Recognition

/-! ## Different names -/

/-- The name gives the thread count and the frame rate, whatever its text is. -/
theorem logname_inj {role : String} {b : Benchmark} {thread thread' : Nat}
    {fps fps' : List Char} (h : logname role b thread fps = logname role b thread' fps') :
    thread = thread' ∧ fps = fps' := by
  rw [logname_eq, logname_eq] at h
  have hsuffix := (List.cons.inj (List.append_cancel_left h)).2
  obtain ⟨hthread, hrest⟩ := decimal_append_inj (c := 't') rfl hsuffix
  have hfps : "hreads_".toList ++ (fps ++ ("fps_".toList ++ (decimal b.iter ++ "rounds".toList))) =
      "hreads_".toList ++ (fps' ++ ("fps_".toList ++ (decimal b.iter ++ "rounds".toList))) := hrest
  exact ⟨hthread, List.append_cancel_right (List.append_cancel_left hfps)⟩

/-! ## All names of a benchmark -/

/-- Every result file is recognised by its name. -/
def NamesRecognised (role : String) (execs : List (List Char)) (b : Benchmark) : Prop :=
  ∀ run ∈ namedRuns execs b,
    Recognised role run.thread run.fps b.iter (run.logname role b)

/-- Different runs have different names. -/
def NamesDiffer (role : String) (execs : List (List Char)) (b : Benchmark) : Prop :=
  ∀ run ∈ namedRuns execs b, ∀ run' ∈ namedRuns execs b,
    run ≠ run' → run.logname role b ≠ run'.logname role b

/-- Every file of `recv_generic` is recognised by its name. -/
def GenericNamesRecognised (b : Benchmark) : Prop :=
  ∀ run ∈ netcatSchedule b.fpsVals b.threads,
    Recognised "recv" run.thread run.fps b.iter (genericLogname run.thread run.fps)

section Names

variable {role : String} {b : Benchmark} {execs : List (List Char)}

theorem mem_namedRuns {run : NamedRun} :
    run ∈ namedRuns execs b ↔
      run.exec ∈ execs ∧ run.thread ∈ oneTo b.threads ∧ run.fps ∈ b.fpsVals := by
  obtain ⟨exec, thread, fps⟩ := run
  simp only [namedRuns, List.mem_flatMap, List.mem_map, NamedRun.mk.injEq]
  constructor
  · rintro ⟨_, hexec, _, hthread, _, hfps, rfl, rfl, rfl⟩
    exact ⟨hexec, hthread, hfps⟩
  · rintro ⟨hexec, hthread, hfps⟩
    exact ⟨exec, hexec, thread, hthread, fps, hfps, rfl, rfl, rfl⟩

/-- The program is not part of the name, everything else is. -/
theorem namesDiffer_iff :
    NamesDiffer role execs b ↔
      ∀ run ∈ namedRuns execs b, ∀ run' ∈ namedRuns execs b, run.exec = run'.exec := by
  constructor
  · intro h run hrun run' hrun'
    by_contra hexec
    obtain ⟨-, hthread, hfps⟩ := mem_namedRuns.mp hrun
    have hother : { run with exec := run'.exec } ∈ namedRuns execs b :=
      mem_namedRuns.mpr ⟨(mem_namedRuns.mp hrun').1, hthread, hfps⟩
    refine h run hrun _ hother (fun heq => ?_) rfl
    have hsame := congrArg NamedRun.exec heq
    exact hexec hsame
  · intro h run hrun run' hrun' hne hname
    obtain ⟨hthread, hfps⟩ := logname_inj hname
    have hexec := h run hrun run' hrun'
    obtain ⟨exec, thread, fps⟩ := run
    obtain ⟨exec', thread', fps'⟩ := run'
    dsimp only at hthread hfps hexec
    rw [hthread, hfps, hexec] at hne
    exact hne rfl

/-- The names of a benchmark are recognised if and only if all frame rates are written in
digits, and differ if and only if there is one program; those of `recv_generic` are never
recognised. -/
theorem names_round_trip (hrole : role ∈ roles) (hformat : b.format ∈ formats.map String.toList)
    (execs : List (List Char)) :
    (NamesRecognised role execs b ↔ ∀ run ∈ namedRuns execs b, IsDigits run.fps) ∧
    (NamesDiffer role execs b ↔
      ∀ run ∈ namedRuns execs b, ∀ run' ∈ namedRuns execs b, run.exec = run'.exec) ∧
    (GenericNamesRecognised b ↔ netcatSchedule b.fpsVals b.threads = []) := by
  refine ⟨?_, namesDiffer_iff, ?_⟩
  · exact forall₂_congr fun run _ => recognised_iff hrole hformat run.thread
  · rw [List.eq_nil_iff_forall_not_mem]
    exact forall₂_congr fun run _ => iff_false_intro (not_recognised_generic _ _ _)

end Names

/-- A range of frame rates that starts with an integer gives names that are recognised. -/
theorem namesRecognised_range {role : String} (hrole : role ∈ roles) {b : Benchmark}
    (hformat : b.format ∈ formats.map String.toList) (execs : List (List Char))
    {number : ℚ → List Char} (hnumber : ∀ n : Nat, n ≤ 5000 → number n = decimal n)
    {rounds : Nat} {o : FpsOptions} (hfps : isTrue o.fps = false) (hstep : 0 ≤ o.step)
    {start : Nat} (hstart : o.start = start) (hvals : b.fpsVals = fpsVals number rounds o) :
    NamesRecognised role execs b := by
  intro run hrun
  refine (recognised_iff hrole hformat run.thread).mpr ?_
  obtain ⟨-, -, hmem⟩ := mem_namedRuns.mp hrun
  rw [hvals] at hmem
  exact isDigits_fpsVals hnumber hfps hstep hstart hmem

/-- A benchmark of one program with a frame rate of digits. -/
theorem names_round_trip_thirty :
    NamesRecognised "send" ["sender".toList] twoRounds ∧
      NamesDiffer "send" ["sender".toList] twoRounds := by
  obtain ⟨hrecognised, hdiffer, -⟩ :=
    @names_round_trip "send" twoRounds (by decide) (by decide) ["sender".toList]
  exact ⟨hrecognised.mpr (by decide), hdiffer.mpr (by decide)⟩

/-- The benchmark at 29.97 frames. -/
def fractionalFps : Benchmark :=
  { twoRounds with fpsVals := fpsVals (fun _ => []) 0 { fps := "29.97".toList } }

/-- With `--fps 29.97` the name of the only result file is not recognised. -/
theorem name_not_recognised :
    namedRuns ["sender".toList] fractionalFps = [⟨"sender".toList, 1, "29.97".toList⟩] ∧
      csvName (logname "send" fractionalFps 1 "29.97".toList) = none ∧
      ¬ NamesRecognised "send" ["sender".toList] fractionalFps := by
  have hruns : namedRuns ["sender".toList] fractionalFps =
      [⟨"sender".toList, 1, "29.97".toList⟩] := by decide
  have hname : csvName (logname "send" fractionalFps 1 "29.97".toList) = none := by
    decide +kernel
  refine ⟨hruns, hname, fun h => ?_⟩
  obtain ⟨hfound, -⟩ := h ⟨"sender".toList, 1, "29.97".toList⟩ (by rw [hruns]; simp)
  rw [NamedRun.logname, hname] at hfound
  cases hfound

end RtpBenchmarks.Results
