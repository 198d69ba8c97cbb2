import Mathlib.Order.Bounds.Basic
import RtpBenchmarks.Results.Directory
import RtpBenchmarks.Results.SendLog

set_option autoImplicit false

/-!
# The best goodput (`parse`)

The files with the best goodputs are chosen by values that are divided by the rounds in their
own names.  They are printed by parsing them once more, with the rounds that are left in the
variable after the last file of the directory.
-/

namespace RtpBenchmarks.Results

open RtpBenchmarks.Foundation

/-! ## The same file with other rounds -/

section Rounds

variable {iter iter' threads : Nat} {unit : String} {filesize : ℚ} {text : List Char}
  {v : SendValues}

/-- A file that can be parsed with some rounds can be parsed with any others, and its goodputs
are different then. -/
theorem parseSend_otherRounds (h : parseSend iter threads unit filesize text = some v)
    (hiter' : iter' ≠ 0) :
    ∃ v', parseSend iter' threads unit filesize text = some v' ∧
      ∀ kind, v.goodput kind ≠ 0 → v'.goodput kind = v.goodput kind → iter' = iter := by
  obtain ⟨entries, hloop, -⟩ := Option.bind_eq_some_iff.mp h
  obtain ⟨hdivides, rfl⟩ := (parseSend_eq_some_iff hloop).mp h
  have hdivides' : Divides iter' threads entries :=
    { hdivides with rounds := hiter' }
  have hne : (iter : ℚ) ≠ 0 := Nat.cast_ne_zero.mpr hdivides.rounds
  have hne' : (iter' : ℚ) ≠ 0 := Nat.cast_ne_zero.mpr hiter'
  -- the goodput of a single thread is divided by the rounds
  have hsingle (hnonzero : goodputTotal unit filesize entries / iter ≠ 0)
      (heq : goodputTotal unit filesize entries / iter' =
        goodputTotal unit filesize entries / iter) : iter' = iter := by
    have htotal : goodputTotal unit filesize entries ≠ 0 := (div_ne_zero_iff.mp hnonzero).1
    rw [div_eq_div_iff hne' hne] at heq
    exact (Nat.cast_inj.mp (mul_left_cancel₀ htotal heq)).symm
  refine ⟨_, parseSend_of_divides hloop hdivides', fun kind hnonzero heq => ?_⟩
  cases kind with
  | single => exact hsingle hnonzero heq
  | total =>
    by_cases hthreads : 1 < threads
    · have htotal := hdivides.total hthreads
      -- the time of a round is, and so the total goodput is multiplied
      simp only [SendValues.goodput, sendValues, if_pos hthreads] at hnonzero heq
      have hamount : unitFactor unit * (filesize * threads) ≠ 0 := (div_ne_zero_iff.mp hnonzero).1
      rw [div_eq_div_iff (div_ne_zero htotal hne') (div_ne_zero htotal hne)] at heq
      have htime := mul_left_cancel₀ hamount heq
      rw [div_eq_div_iff hne hne'] at htime
      exact Nat.cast_inj.mp (mul_left_cancel₀ htotal htime)
    · simp only [SendValues.goodput, sendValues, if_neg hthreads] at hnonzero heq
      exact hsingle hnonzero heq

end Rounds

/-! ## What is to be printed -/

section Shown

variable {o : ParseOptions} (d : ResultDir o)

/-- The goodputs of all results of senders that qualify, and zero. -/
def ResultDir.goodputs (kind : Goodput) : Set ℚ :=
  { q | q = 0 ∨ ∃ f ∈ d.files, f.recv = false ∧ d.Qualifies f ∧ q = (d.send f).goodput kind }

/-- A file that has the goodput is printed with it, or nothing if there is no goodput. -/
def ResultDir.Shows (kind : Goodput) (m : ℚ) (output : List Printed) : Prop :=
  (m = 0 ∧ .nothing kind ∈ output) ∨
    (0 < m ∧ ∃ f ∈ d.files, f.recv = false ∧ d.Qualifies f ∧ (d.send f).goodput kind = m ∧
      ∃ v, .best kind f.name v ∈ output ∧ v.goodput kind = m)

/-- Whatever the order of the directory, the largest goodputs are printed, each with a file that
was chosen for it. -/
def ResultDir.ShowsBest : Prop :=
  ∀ kind, ∃ m, IsGreatest (d.goodputs kind) m ∧ ∀ order dir, d.Lists order dir →
    ∃ output, parse o dir = some output ∧ d.Shows kind m output

/-- All results of senders have the same rounds. -/
def ResultDir.SameRounds : Prop :=
  ∀ f ∈ d.files, ∀ g ∈ d.files, f.recv = false → g.recv = false →
    f.config.rounds = g.config.rounds

/-- No goodput is positive. -/
def ResultDir.NoGoodput : Prop :=
  ∀ kind, ∀ q ∈ d.goodputs kind, q ≤ 0

/-- The best file of an order, by one of the goodputs. -/
def ResultDir.bestFile (kind : Goodput) (order : List ResultFile) : Option CsvFile :=
  (best (fun f => (d.send f).goodput kind) d.file (d.qualifying order)).item

variable {d} {order : List ResultFile} {dir : List CsvFile} {f g : ResultFile} {kind : Goodput}

theorem ResultDir.Lists.mem_qualifying (h : d.Lists order dir) :
    f ∈ d.qualifying order ↔ f ∈ d.files ∧ f.recv = false ∧ d.Qualifies f := by
  simp [ResultDir.qualifying, h.perm.mem_iff]

theorem mem_goodputs (hf : f ∈ d.files) (hsend : f.recv = false) (hq : d.Qualifies f) :
    (d.send f).goodput kind ∈ d.goodputs kind :=
  .inr ⟨f, hf, hsend, hq, rfl⟩

theorem ResultDir.Lists.bestFile_eq_none (h : d.Lists order dir)
    (hnone : d.bestFile kind order = none) : IsGreatest (d.goodputs kind) 0 := by
  refine ⟨.inl rfl, ?_⟩
  rintro q (rfl | ⟨f, hf, hsend, hq, rfl⟩)
  · exact le_refl 0
  · exact item_best_eq_none.mp hnone f (h.mem_qualifying.mpr ⟨hf, hsend, hq⟩)

theorem ResultDir.Lists.bestFile_eq_some (h : d.Lists order dir) {file : CsvFile}
    (hsome : d.bestFile kind order = some file) :
    ∃ f ∈ d.files, f.recv = false ∧ d.Qualifies f ∧ d.file f = file ∧
      0 < (d.send f).goodput kind ∧ IsGreatest (d.goodputs kind) ((d.send f).goodput kind) := by
  obtain ⟨f, hmem, hfile, hpos, hmax⟩ := exists_of_item_best hsome
  obtain ⟨hf, hsend, hq⟩ := h.mem_qualifying.mp hmem
  refine ⟨f, hf, hsend, hq, hfile, hpos, mem_goodputs hf hsend hq, ?_⟩
  rintro q (rfl | ⟨g, hg, hgsend, hgq, rfl⟩)
  · exact hpos.le
  · exact hmax g (h.mem_qualifying.mpr ⟨hg, hgsend, hgq⟩)

/-- A best file in front of the others is the one that is kept. -/
theorem ResultDir.bestFile_cons (hq : d.Qualifies f) (hsend : f.recv = false)
    (hpos : 0 < (d.send f).goodput kind) (hmax : IsGreatest (d.goodputs kind)
      ((d.send f).goodput kind)) (hlists : d.Lists (f :: order) dir) :
    d.bestFile kind (f :: order) = some (d.file f) := by
  have hcons : d.qualifying (f :: order) = f :: d.qualifying order := by
    simp [ResultDir.qualifying, hsend, hq]
  rw [ResultDir.bestFile, hcons]
  refine item_best_cons hpos fun g hg => hmax.2 ?_
  have hmem : g ∈ d.qualifying (f :: order) := by
    rw [hcons]
    exact List.mem_cons_of_mem f hg
  obtain ⟨hg, hgsend, hgq⟩ := hlists.mem_qualifying.mp hmem
  exact mem_goodputs hg hgsend hgq

/-! ## What is printed -/

theorem lastRounds_concat (iter : List Char) (fs : List ResultFile) (f : ResultFile) :
    lastRounds iter (fs ++ [f]) = decimal f.config.rounds := by
  rw [lastRounds, List.foldl_append]
  rfl

/-- If all results of senders have the same rounds, they are left in the variable. -/
theorem ResultDir.SameRounds.lastRounds (hrounds : d.SameRounds) (h : d.Lists order dir)
    (hf : f ∈ d.files) (hsend : f.recv = false) (iter : List Char) :
    Results.lastRounds iter (sideOf false order) = decimal f.config.rounds := by
  have hmem : f ∈ sideOf false order := by simp [sideOf, h.perm.mem_iff, hf, hsend]
  obtain ⟨before, last, hlast⟩ :=
    (List.eq_nil_or_concat' (sideOf false order)).resolve_left (List.ne_nil_of_mem hmem)
  have hmemLast : last ∈ sideOf false order := by
    rw [hlast]
    exact List.mem_append_right before (List.mem_singleton_self last)
  obtain ⟨hg, hgsend⟩ := h.mem_sideOf last hmemLast
  rw [hlast, lastRounds_concat, hrounds last hg f hf hgsend hsend]

/-- A file that was kept is parsed with the rounds of another name. -/
theorem ResultDir.printBest_file (hf : f ∈ d.files) (rounds : Nat) (kind : Goodput) :
    printBest o (decimal rounds) kind (some (d.file f)) =
      (parseSend rounds f.config.threads o.unit o.filesize (d.contents f)).map
        (.best kind f.name) := by
  have hthreads : threadsOf (d.file f).name = decimal f.config.threads :=
    threadsOf_name (d.hasName f hf)
  rw [printBest, hthreads, digitsValue_decimal, digitsValue_decimal]
  rfl

theorem kind_of_printBest {iter name : List Char} {kind' : Goodput} {v : SendValues}
    {file : Option CsvFile} (h : printBest o iter kind file = some (.best kind' name v)) :
    kind' = kind := by
  cases file with
  | none => cases h
  | some file =>
    obtain ⟨v', -, heq⟩ := Option.map_eq_some_iff.mp h
    cases heq
    rfl

/-- Every file that is printed was printed as the best of its goodput. -/
theorem ResultDir.Lists.printBest_of_mem (h : d.Lists order dir) (htype : o.type = .best)
    {output : List Printed} (hparse : parse o dir = some output) :
    ∃ iter, ∀ kind name v, .best kind name v ∈ output →
      printBest o (Results.lastRounds iter (sideOf false order)) kind (d.bestFile kind order) =
        some (.best kind name v) := by
  obtain ⟨iter, hbest⟩ := h.parse_best htype
  rw [hparse] at hbest
  obtain ⟨single, hsingle, hrest⟩ := Option.bind_eq_some_iff.mp hbest.symm
  obtain ⟨total, htotal, houtput⟩ := Option.bind_eq_some_iff.mp hrest
  obtain rfl := Option.some.inj houtput
  refine ⟨iter, fun kind name v hmem => ?_⟩
  simp only [List.mem_cons, List.not_mem_nil, or_false] at hmem
  rcases hmem with rfl | rfl
  · obtain rfl := kind_of_printBest hsingle
    exact hsingle
  · obtain rfl := kind_of_printBest htotal
    exact htotal

theorem ResultDir.Shows.mono {m : ℚ} {output output' : List Printed}
    (h : d.Shows kind m output) (hsub : ∀ p ∈ output, p ∈ output') : d.Shows kind m output' := by
  rcases h with ⟨hzero, hmem⟩ | ⟨hpos, f, hf, hsend, hq, hm, v, hmem, hv⟩
  · exact .inl ⟨hzero, hsub _ hmem⟩
  · exact .inr ⟨hpos, f, hf, hsend, hq, hm, v, hsub _ hmem, hv⟩

/-- With the same rounds, or without goodputs, the largest goodput is printed. -/
theorem ResultDir.Lists.printBest_bestFile (h : d.Lists order dir)
    (hrounds : d.NoGoodput ∨ d.SameRounds) (iter : List Char) (kind : Goodput) :
    ∃ p, printBest o (Results.lastRounds iter (sideOf false order)) kind
        (d.bestFile kind order) = some p ∧
      ∀ m, IsGreatest (d.goodputs kind) m → d.Shows kind m [p] := by
  cases hbest : d.bestFile kind order with
  | none =>
    refine ⟨.nothing kind, rfl, fun m hm => .inl ⟨?_, by simp⟩⟩
    exact hm.unique (h.bestFile_eq_none hbest)
  | some file =>
    obtain ⟨f, hf, hsend, hq, rfl, hpos, hgreat⟩ := h.bestFile_eq_some hbest
    have hsame : d.SameRounds := by
      refine hrounds.resolve_left fun hnone => ?_
      exact absurd hpos (not_lt_of_ge (hnone kind _ hgreat.1))
    refine ⟨.best kind f.name (d.send f), ?_, fun m hm => .inr ?_⟩
    · rw [hsame.lastRounds h hf hsend, ResultDir.printBest_file hf, d.reads_send f hf hsend]
      rfl
    · obtain rfl := hm.unique hgreat
      exact ⟨hpos, f, hf, hsend, hq, rfl, d.send f, by simp, rfl⟩

theorem ResultDir.exists_isGreatest (d : ResultDir o) (kind : Goodput) :
    ∃ m, IsGreatest (d.goodputs kind) m := by
  have hlists := d.lists_of_perm (.refl _)
  cases hbest : d.bestFile kind d.files with
  | none => exact ⟨0, hlists.bestFile_eq_none hbest⟩
  | some file =>
    obtain ⟨f, -, -, -, -, -, hgreat⟩ := hlists.bestFile_eq_some hbest
    exact ⟨_, hgreat⟩

theorem ResultDir.showsBest_of_sameRounds (htype : o.type = .best)
    (hrounds : d.NoGoodput ∨ d.SameRounds) : d.ShowsBest := by
  intro kind
  obtain ⟨m, hm⟩ := d.exists_isGreatest kind
  refine ⟨m, hm, fun order dir h => ?_⟩
  obtain ⟨iter, hparse⟩ := h.parse_best htype
  obtain ⟨single, hsingle, hshowsSingle⟩ := h.printBest_bestFile hrounds iter .single
  obtain ⟨total, htotal, hshowsTotal⟩ := h.printBest_bestFile hrounds iter .total
  refine ⟨[single, total], ?_, ?_⟩
  · rw [hparse]
    exact (congrArg (Option.bind · _) hsingle).trans (congrArg (Option.bind · _) htotal)
  · cases kind with
    | single => exact (hshowsSingle m hm).mono (by simp)
    | total => exact (hshowsTotal m hm).mono (by simp)

/-- The best file in front of the others, and one with other rounds behind them. -/
theorem ResultDir.exists_order (hf : f ∈ d.files) (hg : g ∈ d.files) (hne : g ≠ f) :
    ∃ between, (f :: (between ++ [g])).Perm d.files := by
  have hmem : g ∈ d.files.erase f := (List.mem_erase_of_ne hne).mpr hg
  refine ⟨(d.files.erase f).erase g, ?_⟩
  refine .trans (.cons f ?_) (List.perm_cons_erase hf).symm
  exact (List.perm_append_singleton g _).trans (List.perm_cons_erase hmem).symm

theorem ResultDir.sameRounds_of_showsBest (htype : o.type = .best) (h : d.ShowsBest) :
    d.NoGoodput ∨ d.SameRounds := by
  by_contra hnot
  obtain ⟨hsome, hrounds⟩ := not_or.mp hnot
  simp only [ResultDir.NoGoodput, not_forall, not_le] at hsome
  obtain ⟨kind, q, hq, hqpos⟩ := hsome
  obtain ⟨m, hgreat, hall⟩ := h kind
  have hpos : 0 < m := hqpos.trans_le (hgreat.2 hq)
  obtain rfl | ⟨f, hf, hsend, hqualifies, rfl⟩ := hgreat.1
  · exact absurd hpos (lt_irrefl 0)
  -- a result with other rounds than the best one
  obtain ⟨g, hg, hgsend, hother⟩ : ∃ g ∈ d.files, g.recv = false ∧
      g.config.rounds ≠ f.config.rounds := by
    by_contra hsame
    refine hrounds fun a ha b hb hasend hbsend => ?_
    by_contra hne
    refine hsame ?_
    by_cases haf : a.config.rounds = f.config.rounds
    · exact ⟨b, hb, hbsend, fun hbf => hne (haf.trans hbf.symm)⟩
    · exact ⟨a, ha, hasend, haf⟩
  obtain ⟨between, hperm⟩ := d.exists_order hf hg fun heq => hother (by rw [heq])
  have hlists := d.lists_of_perm hperm
  obtain ⟨output, hparse, hshows⟩ := hall _ _ hlists
  obtain ⟨iter, hprinted⟩ := hlists.printBest_of_mem htype hparse
  obtain ⟨hzero, -⟩ | ⟨-, f', -, -, -, -, v, hmem, hv⟩ := hshows
  · exact absurd hzero hpos.ne'
  have hbest := hprinted kind f'.name v hmem
  have hside : sideOf false (f :: (between ++ [g])) =
      sideOf false (f :: between) ++ [g] := by
    simp [sideOf, hgsend, hsend]
  rw [d.bestFile_cons hqualifies hsend hpos hgreat hlists, hside, lastRounds_concat,
    ResultDir.printBest_file hf] at hbest
  obtain ⟨v', hv', hgoodput⟩ :=
    parseSend_otherRounds (d.reads_send f hf hsend) (d.rounds g hg)
  rw [hv', Option.map_some, Option.some.injEq] at hbest
  obtain ⟨-, -, rfl⟩ := Printed.best.inj hbest
  exact hother (hgoodput kind hpos.ne' hv)

/-- The largest goodputs are printed in every order exactly when all results of senders have the
same rounds, or there is no goodput. -/
theorem parse_showsBest_iff (htype : o.type = .best) (d : ResultDir o) :
    d.ShowsBest ↔ d.NoGoodput ∨ d.SameRounds :=
  ⟨ResultDir.sameRounds_of_showsBest htype, ResultDir.showsBest_of_sameRounds htype⟩

end Shown

/-! ## Results of one round and of two -/

/-- With one sender the largest goodputs are printed. -/
theorem parse_showsBest_iff_one : (losslessDir 100 .best).ShowsBest :=
  (parse_showsBest_iff rfl (losslessDir 100 .best)).mpr <| .inr fun f hf g hg hsend hgsend => by
    simp only [losslessDir, List.mem_cons, List.not_mem_nil, or_false] at hf hg
    rcases hf with rfl | rfl
    · cases hsend
    · rcases hg with rfl | rfl
      · cases hgsend
      · rfl

/-- Two seconds are less than a minute. -/
theorem twoSeconds_lt : 200 < 6000 := by decide

/-- A run of two senders that take twice the time. -/
def slowRun : RunLog SendResult 2 where
  results := [⟨602000000, 1204⟩, ⟨602000000, 1204⟩]
  length_results := rfl
  command := none
  report := { secondReport with elapsed := 200, elapsed_lt := twoSeconds_lt }

/-- The name of a file of two rounds. -/
def twoRoundsFile : ResultFile where
  recv := false
  config :=
    { format := "hevc".toList, srtp := false, threads := 2, fps := "30".toList, rounds := 2 }

def mixedText (f : ResultFile) : List Char :=
  if f = twoRoundsFile then resultText SendResult.line [slowRun, slowRun] else twoThreadsText f

def mixedSend (f : ResultFile) : SendValues :=
  if f = twoRoundsFile then { usr := 1, sys := 1, cpu := 1, total := 2, sgp := 500, tgp := 602000 }
  else { usr := 1, sys := 1, cpu := 1, total := 1, sgp := 1000, tgp := 1204000 }

theorem parseSend_slow :
    parseSend 2 2 "MB" 602000000 (resultText SendResult.line [slowRun, slowRun]) =
      some { usr := 1, sys := 1, cpu := 1, total := 2, sgp := 500, tgp := 602000 } := by
  have hentry : slowRun.sendEntry =
      some { time := 1204, usage := some { secondReport.usage with total := 2 } } := by
    norm_num [RunLog.sendEntry, RunLog.leftOut, slowRun, sendTime, TimeReport.usage]
  rw [parseSend, textLines_resultText SendResult.isLine, sendLoop_lines (by decide)]
  simp only [List.filterMap_cons, hentry, List.filterMap_nil, Option.bind_eq_bind, Option.bind_some]
  norm_num [goodput_MB, SendEntry.used, TimeReport.usage, secondReport]

/-- What is read of the file of one round if it is parsed with two. -/
def halvedValues : SendValues where
  usr := 1 / 2
  sys := 1 / 2
  cpu := 1 / 2
  total := 1 / 2
  sgp := 500
  tgp := 2408000

theorem parseSend_halved :
    parseSend 2 2 "MB" 602000000 (resultText SendResult.line [sendRunOfTwo]) =
      some halvedValues := by
  have hentry : sendRunOfTwo.sendEntry =
      some { time := 602, usage := some secondReport.usage } := by
    norm_num [RunLog.sendEntry, RunLog.leftOut, sendRunOfTwo, sendTime]
  rw [parseSend, textLines_resultText SendResult.isLine, sendLoop_lines (by decide)]
  simp only [List.filterMap_cons, hentry, List.filterMap_nil, Option.bind_eq_bind, Option.bind_some]
  norm_num [goodput_MB, SendEntry.used, TimeReport.usage, secondReport, halvedValues]

/-- The faster sender ran once, the slower one twice. -/
def mixedDir : ResultDir (losslessOptions 100 .best) where
  files := [twoThreadsFile true, twoThreadsFile false, twoRoundsFile]
  contents := mixedText
  recv _ := losslessValues
  send := mixedSend
  nodup := by decide +kernel
  hasName := by
    simp only [List.forall_mem_cons]
    exact ⟨(fields_two true).1, (fields_two false).1, by decide, by simp⟩
  rounds := by decide
  reads_recv := by
    simp only [List.forall_mem_cons]
    exact ⟨fun _ => parseRecv_two, nofun, nofun, by simp⟩
  reads_send := by
    simp only [List.forall_mem_cons]
    exact ⟨nofun, fun _ => parseSend_two, fun _ => parseSend_slow, by simp⟩

theorem mixedDir_qualifying :
    mixedDir.qualifying mixedDir.files = [twoThreadsFile false, twoRoundsFile] := by
  have hallows : allows (losslessOptions 100 .best) losslessValues = true := by
    norm_num [allows, losslessOptions, losslessValues]
  have hqualifies (f : ResultFile) (hf : (twoThreadsFile true).SameRun f) :
      mixedDir.Qualifies f :=
    ⟨twoThreadsFile true, by simp [mixedDir], rfl, hf, hallows⟩
  have hfirst := hqualifies (twoThreadsFile false) ⟨rfl, rfl⟩
  have hsecond := hqualifies twoRoundsFile ⟨rfl, rfl⟩
  have hrecv : (twoThreadsFile true).recv = true := rfl
  have hsend : (twoThreadsFile false).recv = false := rfl
  have hrounds : twoRoundsFile.recv = false := rfl
  rw [ResultDir.qualifying]
  simp only [mixedDir] at hfirst hsecond ⊢
  simp [hfirst, hsecond, hrecv, hsend, hrounds]

/-- The faster sender is chosen for its 1000 MB/s and printed with 500 MB/s. -/
theorem parse_not_showsBest :
    parse (losslessOptions 100 .best) (mixedDir.files.map mixedDir.file) =
        some [.best .single (twoThreadsFile false).name halvedValues,
          .best .total (twoThreadsFile false).name halvedValues] ∧
      (mixedDir.send (twoThreadsFile false)).sgp = 1000 ∧ ¬ mixedDir.ShowsBest := by
  have hlists := mixedDir.lists_of_perm (.refl _)
  have hmem : twoThreadsFile false ∈ mixedDir.files := by simp [mixedDir]
  have hfast : mixedDir.send (twoThreadsFile false) =
      { usr := 1, sys := 1, cpu := 1, total := 1, sgp := 1000, tgp := 1204000 } := rfl
  have hslow : mixedDir.send twoRoundsFile =
      { usr := 1, sys := 1, cpu := 1, total := 2, sgp := 500, tgp := 602000 } := rfl
  have hbest (kind : Goodput) :
      mixedDir.bestFile kind mixedDir.files = some (mixedDir.file (twoThreadsFile false)) := by
    rw [ResultDir.bestFile, mixedDir_qualifying]
    refine item_best_cons ?_ ?_
    · rw [hfast]
      cases kind <;> norm_num [SendValues.goodput]
    · rw [List.forall_mem_singleton, hfast, hslow]
      cases kind <;> norm_num [SendValues.goodput]
  refine ⟨?_, rfl, fun h => ?_⟩
  · obtain ⟨iter, hparse⟩ := hlists.parse_best rfl
    have hlast : lastRounds iter (sideOf false mixedDir.files) = decimal 2 := rfl
    have hprint (kind : Goodput) :
        printBest (losslessOptions 100 .best) (decimal 2) kind
          (mixedDir.bestFile kind mixedDir.files) =
            some (.best kind (twoThreadsFile false).name halvedValues) := by
      rw [hbest, ResultDir.printBest_file hmem]
      exact congrArg (Option.map _) parseSend_halved
    rw [hparse, hlast]
    exact (congrArg (Option.bind · _) (hprint .single)).trans
      (congrArg (Option.bind · _) (hprint .total))
  · rcases ResultDir.sameRounds_of_showsBest rfl h with hnone | hsame
    · have hqualifies : mixedDir.Qualifies (twoThreadsFile false) :=
        (hlists.mem_qualifying.mp (by rw [mixedDir_qualifying]; simp)).2.2
      have hle := hnone .single _ (mem_goodputs hmem rfl hqualifies)
      rw [hfast] at hle
      norm_num [SendValues.goodput] at hle
    · have hrounds := hsame _ hmem twoRoundsFile (by simp [mixedDir]) rfl rfl
      simp [twoThreadsFile, twoRoundsFile] at hrounds

end RtpBenchmarks.Results
