import RtpBenchmarks.Foundation.Selection
import RtpBenchmarks.Results.CsvTable

set_option autoImplicit false

/-!
# The results of a directory (`parse`)

`parse` goes through a directory twice.  The results of the receivers say which thread counts
and frame rates are allowed; then the results of the senders are printed, or the best of them
are kept and parsed once more to be printed.  The number of rounds is a variable that every
name sets.
-/

namespace RtpBenchmarks.Results

open RtpBenchmarks.Foundation
open RtpBenchmarks.Scripts

/-! ## The code -/

/-- `$type`. -/
inductive ParseType where
  | best
  | all
  deriving DecidableEq, Repr

/-- The arguments of `parse` besides the directory. -/
structure ParseOptions where
  lib : String
  iter : List Char
  pktLoss : ℚ
  frameLoss : ℚ
  type : ParseType
  unit : String
  filesize : ℚ
  filesize_pos : 0 < filesize

/-- The two goodputs of which the best is looked for. -/
inductive Goodput where
  | single
  | total
  deriving DecidableEq, Repr

/-- `$values[5]` or `$values[6]`. -/
def SendValues.goodput (v : SendValues) : Goodput → ℚ
  | .single => v.sgp
  | .total => v.tgp

/-- What is printed. -/
inductive Printed where
  | skipping (name : List Char)
  | result (name : List Char) (sgp tgp : ℚ)
  | best (kind : Goodput) (name : List Char) (values : SendValues)
  | nothing (kind : Goodput)
  deriving DecidableEq

/-- `grep /send/`. -/
def isSendFile (file : CsvFile) : Bool :=
  (Pattern.word "send".toList).occursIn file.name

/-- `"$threads $fps"`. -/
def parseKey (threads fps : List Char) : List Char :=
  threads ++ ' ' :: fps

/-- `$values[5]` and `$values[6]` are small enough. -/
def allows (o : ParseOptions) (v : RecvValues) : Bool :=
  decide (100 - v.frameLoss ≤ o.frameLoss ∧ 100 - v.bytes ≤ o.pktLoss)

/-- `$iter`, the keys of `%a` and what has been printed. -/
structure RecvScan where
  iter : List Char
  allowed : List (List Char)
  output : List Printed

/-- The body of the loop over the results of receivers; `none` where the program dies. -/
def recvStep (o : ParseOptions) (s : RecvScan) (file : CsvFile) : Option RecvScan :=
  let (threads, fps, fiter) := csvFields file.name
  let iter := if isTrue fiter then fiter else s.iter
  if isTrue iter then
    match parseRecv o.lib (digitsValue iter) (digitsValue threads) o.unit o.filesize file.text with
    | none => none
    | some v =>
      some
        { iter
          allowed := if allows o v then s.allowed ++ [parseKey threads fps] else s.allowed
          output := s.output }
  -- unable to determine iter
  else some { s with iter, output := s.output ++ [.skipping file.name] }

/-- `$iter`, `$sgp` and `$sgp_k`, `$tgp` and `$tgp_k`, and what has been printed. -/
structure SendScan where
  iter : List Char
  single : Best CsvFile ℚ
  total : Best CsvFile ℚ
  output : List Printed

/-- The body of the loop over the results of senders. -/
def sendStep (o : ParseOptions) (allowed : List (List Char)) (s : SendScan) (file : CsvFile) :
    Option SendScan :=
  let (threads, fps, fiter) := csvFields file.name
  let iter := if isTrue fiter then fiter else s.iter
  if isTrue iter then
    match parseSend (digitsValue iter) (digitsValue threads) o.unit o.filesize file.text with
    | none => none
    | some v =>
      if parseKey threads fps ∈ allowed then
        match o.type with
        | .best =>
          some
            { s with
              iter
              single := s.single.update v.sgp file
              total := s.total.update v.tgp file }
        | .all => some { s with iter, output := s.output ++ [.result file.name v.sgp v.tgp] }
      else some { s with iter }
  else some { s with iter, output := s.output ++ [.skipping file.name] }

/-- The first loop. -/
def recvScan (o : ParseOptions) (dir : List CsvFile) : Option RecvScan :=
  (dir.filter isRecvFile).foldlM (recvStep o) { iter := o.iter, allowed := [], output := [] }

/-- The second loop. -/
def sendScan (o : ParseOptions) (dir : List CsvFile) (r : RecvScan) : Option SendScan :=
  (dir.filter isSendFile).foldlM (sendStep o r.allowed)
    { iter := r.iter, single := .start, total := .start, output := r.output }

/-- `/(\d+)threads_(\d+)/`. -/
def threadsFpsPattern : Pattern :=
  .seq (.group .digits) (.seq (.word "threads_".toList) (.group .digits))

/-- `$threads` of a name without regard to the rounds, empty where it is not recognised. -/
def threadsOf (filename : List Char) : List Char :=
  match threadsFpsPattern.search filename with
  | some [threads, _] => threads
  | _ => []

/-- The file that was kept is parsed again, with the number of rounds that is in `$iter`. -/
def printBest (o : ParseOptions) (iter : List Char) (kind : Goodput) :
    Option CsvFile → Option Printed
  | none => some (.nothing kind)
  | some file =>
    (parseSend (digitsValue iter) (digitsValue (threadsOf file.name)) o.unit o.filesize
      file.text).map (.best kind file.name)

/-- `parse`: what it prints; `none` where the program dies. -/
def parse (o : ParseOptions) (dir : List CsvFile) : Option (List Printed) := do
  let r ← recvScan o dir
  let s ← sendScan o dir r
  match o.type with
  | .all => some s.output
  | .best => do
    let single ← printBest o s.iter .single s.single.item
    let total ← printBest o s.iter .total s.total.item
    some (s.output ++ [single, total])

/-! ## Directories of results -/

/-- Result files with different names, in which the rounds are not zero, and what is read of
each with its own rounds. -/
structure ResultDir (o : ParseOptions) where
  files : List ResultFile
  contents : ResultFile → List Char
  recv : ResultFile → RecvValues
  send : ResultFile → SendValues
  nodup : (files.map ResultFile.name).Nodup
  hasName : ∀ f ∈ files, f.config.HasName
  rounds : ∀ f ∈ files, f.config.rounds ≠ 0
  reads_recv : ∀ f ∈ files, f.recv = true →
    parseRecv o.lib f.config.rounds f.config.threads o.unit o.filesize (contents f) =
      some (recv f)
  reads_send : ∀ f ∈ files, f.recv = false →
    parseSend f.config.rounds f.config.threads o.unit o.filesize (contents f) = some (send f)

/-- A file of the directory. -/
def ResultDir.file {o : ParseOptions} (d : ResultDir o) (f : ResultFile) : CsvFile :=
  f.file d.contents

/-- The directory is read in this order, with other files that have no role in between. -/
structure ResultDir.Lists {o : ParseOptions} (d : ResultDir o) (order : List ResultFile)
    (dir : List CsvFile) : Prop where
  perm : order.Perm d.files
  filter_eq : dir.filter isResultFile = order.map d.file

/-- The same thread count and frame rate. -/
def ResultFile.SameRun (f g : ResultFile) : Prop :=
  f.config.threads = g.config.threads ∧ f.config.fps = g.config.fps

instance (f g : ResultFile) : Decidable (f.SameRun g) :=
  inferInstanceAs (Decidable (_ ∧ _))

/-- A result of a receiver with this thread count and frame rate is allowed. -/
def ResultDir.Qualifies {o : ParseOptions} (d : ResultDir o) (f : ResultFile) : Prop :=
  ∃ g ∈ d.files, g.recv = true ∧ g.SameRun f ∧ allows o (d.recv g) = true

instance {o : ParseOptions} (d : ResultDir o) (f : ResultFile) : Decidable (d.Qualifies f) :=
  inferInstanceAs (Decidable (∃ g ∈ d.files, _))

/-- `$iter` after files with these names. -/
def lastRounds (iter : List Char) (fs : List ResultFile) : List Char :=
  fs.foldl (fun _ f => decimal f.config.rounds) iter

/-! ## Names -/

section Names

variable {f g : ResultFile} {contents : ResultFile → List Char}

theorem isSendFile_file (h : f.config.HasName) :
    isSendFile (f.file contents) = !f.recv := by
  have hrole := @occursIn_word_role f.role f.config.benchmark f.config.fps "send" (by decide)
    f.role_mem h.1 f.config.threads h.2
  rw [isSendFile, ResultFile.file]
  refine hrole.trans ?_
  unfold ResultFile.role
  cases f.recv <;> decide

theorem isTrue_decimal {n : Nat} (h : n ≠ 0) : isTrue (decimal n) = true := by
  have hzero : decimal n ≠ ['0'] := by
    intro heq
    have hvalue := congrArg digitsValue heq
    rw [digitsValue_decimal] at hvalue
    exact h hvalue
  have hnil : decimal n ≠ [] := (isDigits_decimal n).1
  simp [Scripts.isTrue, hzero, hnil]

/-- Without regard to the rounds the thread count is the same. -/
theorem threadsOf_name (h : f.config.HasName) : threadsOf f.name = decimal f.config.threads := by
  have hsplit : f.name = (namePrefix f.role f.config.benchmark ++ ['_']) ++
      nameSuffix f.config.benchmark f.config.threads f.config.fps := by
    rw [ResultFile.name, logname_eq, List.append_assoc]
    rfl
  have hsearch : threadsFpsPattern.search f.name =
      some [decimal f.config.threads, f.config.fps] := by
    rw [hsplit, threadsFpsPattern,
      Pattern.search_skips (skips_namePrefix f.role_mem h.1 _ _), nameSuffix]
    refine @Pattern.search_of_first _ _ _
      ("fps_".toList ++ (decimal f.config.benchmark.iter ++ "rounds".toList)) ?_
    refine Pattern.first_seq (first_digits_group (isDigits_decimal _) (by rintro c ⟨⟩; rfl)) ?_
    exact Pattern.first_seq (Pattern.first_word _)
      (first_digits_group h.2 (by rintro c ⟨⟩; rfl))
  rw [threadsOf, hsearch]

/-- The key of a file in `%a`. -/
def ResultFile.parseKey (f : ResultFile) : List Char :=
  Results.parseKey (decimal f.config.threads) f.config.fps

theorem parseKey_eq_iff : f.parseKey = g.parseKey ↔ f.SameRun g := by
  constructor
  · intro h
    exact decimal_append_inj rfl h
  · rintro ⟨hthreads, hfps⟩
    rw [ResultFile.parseKey, ResultFile.parseKey, hthreads, hfps]

end Names

/-! ## The two loops -/

section Loops

variable {o : ParseOptions} (d : ResultDir o) {f : ResultFile} {fs order : List ResultFile}
  {dir : List CsvFile}

theorem ResultDir.csvFields_file (hf : f ∈ d.files) :
    csvFields (d.file f).name =
      (decimal f.config.threads, f.config.fps, decimal f.config.rounds) :=
  csvFields_name (d.hasName f hf)

theorem ResultDir.recvStep_file (hf : f ∈ d.files) (hrecv : f.recv = true) (s : RecvScan) :
    recvStep o s (d.file f) =
      some
        { iter := decimal f.config.rounds
          allowed := s.allowed ++ if allows o (d.recv f) then [f.parseKey] else []
          output := s.output } := by
  have hread : parseRecv o.lib f.config.rounds f.config.threads o.unit o.filesize
      (d.file f).text = some (d.recv f) := d.reads_recv f hf hrecv
  simp only [recvStep, d.csvFields_file hf, isTrue_decimal (d.rounds f hf), if_true,
    digitsValue_decimal, hread]
  split_ifs with hallows
  · rfl
  · rw [List.append_nil]

/-- The first loop sets the rounds and adds the keys of the results that are allowed. -/
theorem ResultDir.foldlM_recvStep (hfs : ∀ f ∈ fs, f ∈ d.files ∧ f.recv = true) (s : RecvScan) :
    (fs.map d.file).foldlM (recvStep o) s =
      some
        { iter := lastRounds s.iter fs
          allowed := s.allowed ++ (fs.filter fun f => allows o (d.recv f)).map ResultFile.parseKey
          output := s.output } := by
  induction fs generalizing s with
  | nil => simp [lastRounds]
  | cons f fs ih =>
    obtain ⟨⟨hf, hrecv⟩, hfs⟩ := List.forall_mem_cons.mp hfs
    rw [List.map_cons, List.foldlM_cons, d.recvStep_file hf hrecv]
    refine (ih hfs _).trans ?_
    rw [lastRounds, lastRounds, List.foldl_cons, List.append_assoc, List.filter_cons]
    split_ifs <;> rfl

/-- What is done with a result of a sender whose thread count and frame rate are allowed. -/
def ResultDir.sendNext (s : SendScan) (f : ResultFile) : SendScan :=
  match o.type with
  | .best =>
    { s with
      single := s.single.update (d.send f).sgp (d.file f)
      total := s.total.update (d.send f).tgp (d.file f) }
  | .all => { s with output := s.output ++ [.result f.name (d.send f).sgp (d.send f).tgp] }

theorem ResultDir.sendStep_file (hf : f ∈ d.files) (hsend : f.recv = false)
    (allowed : List (List Char)) (s : SendScan) :
    sendStep o allowed s (d.file f) =
      some { (if f.parseKey ∈ allowed then d.sendNext s f else s) with
        iter := decimal f.config.rounds } := by
  have hread : parseSend f.config.rounds f.config.threads o.unit o.filesize
      (d.file f).text = some (d.send f) := d.reads_send f hf hsend
  have hkey : Results.parseKey (decimal f.config.threads) f.config.fps = f.parseKey := rfl
  simp only [sendStep, d.csvFields_file hf, isTrue_decimal (d.rounds f hf), if_true,
    digitsValue_decimal, hread, hkey, ResultDir.sendNext]
  split_ifs
  · cases o.type <;> rfl
  · rfl

/-- The results do not depend on the rounds that are carried on. -/
theorem ResultDir.foldl_sendNext_iter (s : SendScan) (iter : List Char) :
    fs.foldl d.sendNext { s with iter } = { fs.foldl d.sendNext s with iter } := by
  induction fs generalizing s with
  | nil => rfl
  | cons f fs ih =>
    have hnext : d.sendNext { s with iter } f = { d.sendNext s f with iter } := by
      simp only [ResultDir.sendNext]
      cases o.type <;> rfl
    rw [List.foldl_cons, List.foldl_cons, hnext, ih]

/-- The second loop sets the rounds and goes through the results that are allowed. -/
theorem ResultDir.foldlM_sendStep (hfs : ∀ f ∈ fs, f ∈ d.files ∧ f.recv = false)
    (allowed : List (List Char)) (s : SendScan) :
    (fs.map d.file).foldlM (sendStep o allowed) s =
      some { (fs.filter fun f => decide (f.parseKey ∈ allowed)).foldl d.sendNext s with
        iter := lastRounds s.iter fs } := by
  induction fs generalizing s with
  | nil => rfl
  | cons f fs ih =>
    obtain ⟨⟨hf, hsend⟩, hfs⟩ := List.forall_mem_cons.mp hfs
    rw [List.map_cons, List.foldlM_cons, d.sendStep_file hf hsend]
    refine (ih hfs _).trans ?_
    rw [d.foldl_sendNext_iter, List.filter_cons]
    simp only [decide_eq_true_eq]
    split_ifs <;> rfl

/-- With `best` the two best results are kept. -/
theorem ResultDir.foldl_sendNext_best (htype : o.type = .best) (s : SendScan) :
    fs.foldl d.sendNext s =
      { s with
        single := fs.foldl (fun b f => b.update (d.send f).sgp (d.file f)) s.single
        total := fs.foldl (fun b f => b.update (d.send f).tgp (d.file f)) s.total } := by
  induction fs generalizing s with
  | nil => rfl
  | cons f fs ih =>
    have hnext : d.sendNext s f =
        { s with
          single := s.single.update (d.send f).sgp (d.file f)
          total := s.total.update (d.send f).tgp (d.file f) } := by
      simp only [ResultDir.sendNext, htype]
    rw [List.foldl_cons, hnext, ih]
    rfl

/-- With `all` a line is printed for each result. -/
theorem ResultDir.foldl_sendNext_all (htype : o.type = .all) (s : SendScan) :
    fs.foldl d.sendNext s =
      { s with
        output := s.output ++ fs.map fun f =>
          .result f.name (d.send f).sgp (d.send f).tgp } := by
  induction fs generalizing s with
  | nil => simp
  | cons f fs ih =>
    have hnext : d.sendNext s f =
        { s with output := s.output ++ [.result f.name (d.send f).sgp (d.send f).tgp] } := by
      simp only [ResultDir.sendNext, htype]
    rw [List.foldl_cons, hnext, ih]
    simp

end Loops

/-! ## What is printed -/

section Printed

variable {o : ParseOptions} (d : ResultDir o) {f : ResultFile} {order : List ResultFile}
  {dir : List CsvFile}

/-- The results of senders that take part, in the order in which they are read. -/
def ResultDir.qualifying (order : List ResultFile) : List ResultFile :=
  order.filter fun f => !f.recv && decide (d.Qualifies f)

/-- The files of one role, in the order in which they are read. -/
def sideOf (recv : Bool) (order : List ResultFile) : List ResultFile :=
  order.filter fun f => f.recv == recv

variable {d}

theorem ResultDir.Lists.mem_sideOf (h : d.Lists order dir) {recv : Bool} :
    ∀ f ∈ sideOf recv order, f ∈ d.files ∧ f.recv = recv := by
  intro f hf
  obtain ⟨hmem, hrole⟩ := List.mem_filter.mp hf
  exact ⟨h.perm.mem_iff.mp hmem, beq_iff_eq.mp hrole⟩

theorem ResultDir.Lists.filter_role (h : d.Lists order dir) {recv : Bool} {p : CsvFile → Bool}
    (hresult : ∀ file, p file = true → isResultFile file = true)
    (hrole : ∀ f ∈ d.files, p (d.file f) = (f.recv == recv)) :
    dir.filter p = (sideOf recv order).map d.file := by
  have hfilter : dir.filter p = (dir.filter isResultFile).filter p := by
    rw [List.filter_filter]
    refine List.filter_congr fun file _ => ?_
    cases hp : p file with
    | true => rw [hresult file hp]; rfl
    | false => rfl
  rw [hfilter, h.filter_eq, List.filter_map, sideOf]
  refine congrArg (List.map d.file) (List.filter_congr fun f hf => ?_)
  exact hrole f (h.perm.mem_iff.mp hf)

theorem ResultDir.Lists.filter_recv (h : d.Lists order dir) :
    dir.filter isRecvFile = (sideOf true order).map d.file := by
  refine h.filter_role (fun file hfile => ?_) fun f hf => ?_
  · have hrecv : (Pattern.word "recv".toList).occursIn file.name = true := hfile
    rw [isResultFile, Pattern.occursIn_alt, hrecv, Bool.true_or]
  · rw [ResultDir.file, isRecvFile_file (d.hasName f hf)]
    cases f.recv <;> rfl

theorem ResultDir.Lists.filter_send (h : d.Lists order dir) :
    dir.filter isSendFile = (sideOf false order).map d.file := by
  refine h.filter_role (fun file hfile => ?_) fun f hf => ?_
  · have hsend : (Pattern.word "send".toList).occursIn file.name = true := hfile
    rw [isResultFile, Pattern.occursIn_alt, hsend, Bool.or_true]
  · rw [ResultDir.file, isSendFile_file (d.hasName f hf)]
    cases f.recv <;> rfl

/-- Every order of the files is one in which the directory may be read. -/
theorem ResultDir.lists_of_perm (d : ResultDir o) (h : order.Perm d.files) :
    d.Lists order (order.map d.file) where
  perm := h
  filter_eq := by
    refine List.filter_eq_self.mpr fun file hfile => ?_
    obtain ⟨f, hf, rfl⟩ := List.mem_map.mp hfile
    have hname := d.hasName f (h.mem_iff.mp hf)
    exact (@occursIn_role f.role f.config.benchmark f.config.fps f.role_mem hname.1
      f.config.threads hname.2).2

/-- The first loop leaves the keys of the results of receivers that are allowed. -/
theorem ResultDir.Lists.recvScan (h : d.Lists order dir) :
    ∃ r, Results.recvScan o dir = some r ∧ r.output = [] ∧
      ∀ f, f.parseKey ∈ r.allowed ↔ d.Qualifies f := by
  have hrun := d.foldlM_recvStep h.mem_sideOf { iter := o.iter, allowed := [], output := [] }
  rw [← h.filter_recv] at hrun
  refine ⟨_, hrun, rfl, fun f => ?_⟩
  simp only [List.nil_append, List.mem_map, List.mem_filter, sideOf, beq_iff_eq,
    ResultDir.Qualifies, h.perm.mem_iff, parseKey_eq_iff]
  refine exists_congr fun g => ?_
  tauto

theorem ResultDir.Lists.sendScan (h : d.Lists order dir) {r : RecvScan}
    (hallowed : ∀ f, f.parseKey ∈ r.allowed ↔ d.Qualifies f) :
    Results.sendScan o dir r =
      some { (d.qualifying order).foldl d.sendNext
          { iter := r.iter, single := .start, total := .start, output := r.output } with
        iter := lastRounds r.iter (sideOf false order) } := by
  have hfilter : (sideOf false order).filter (fun f => decide (f.parseKey ∈ r.allowed)) =
      d.qualifying order := by
    rw [sideOf, List.filter_filter, ResultDir.qualifying]
    refine List.filter_congr fun f _ => ?_
    have hdecide : decide (f.parseKey ∈ r.allowed) = decide (d.Qualifies f) :=
      decide_eq_decide.mpr (hallowed f)
    rw [hdecide]
    cases f.recv <;> simp
  rw [Results.sendScan, h.filter_send, d.foldlM_sendStep h.mem_sideOf, hfilter]

/-- With `all` a line is printed for each result of a sender that qualifies. -/
theorem ResultDir.Lists.parse_all (h : d.Lists order dir) (htype : o.type = .all) :
    parse o dir = some ((d.qualifying order).map fun f =>
      .result f.name (d.send f).sgp (d.send f).tgp) := by
  obtain ⟨r, hrecv, houtput, hallowed⟩ := h.recvScan
  simp only [parse, hrecv, h.sendScan hallowed, d.foldl_sendNext_all htype, houtput, htype,
    Option.bind_eq_bind, Option.bind_some, List.nil_append]

/-- With `best` the files with the largest goodputs are printed, if there are any, parsed with the
rounds of the last file. -/
theorem ResultDir.Lists.parse_best (h : d.Lists order dir) (htype : o.type = .best) :
    ∃ iter, parse o dir =
      (printBest o (lastRounds iter (sideOf false order)) .single
        (best (fun f => (d.send f).sgp) d.file (d.qualifying order)).item).bind fun single =>
      (printBest o (lastRounds iter (sideOf false order)) .total
        (best (fun f => (d.send f).tgp) d.file (d.qualifying order)).item).bind fun total =>
      some [single, total] := by
  obtain ⟨r, hrecv, houtput, hallowed⟩ := h.recvScan
  refine ⟨r.iter, ?_⟩
  simp only [parse, hrecv, h.sendScan hallowed, d.foldl_sendNext_best htype, houtput, htype,
    Option.bind_eq_bind, Option.bind_some, List.nil_append]
  rfl

end Printed

/-! ## Results without losses -/

/-- The same percentage of lost frames and of lost packets is allowed. -/
def losslessOptions (percent : ℚ) (type : ParseType) : ParseOptions where
  lib := "uvgrtp"
  iter := []
  pktLoss := percent
  frameLoss := percent
  type
  unit := "MB"
  filesize := 602000000
  filesize_pos := by norm_num

/-- What is read of a receiver that loses nothing. -/
def losslessValues : RecvValues where
  usr := 1
  sys := 1
  cpu := 1
  total := 1
  frameLoss := 0
  bytes := 1
  goodput := 1000

/-- A receiver and a sender of two threads. -/
def losslessDir (percent : ℚ) (type : ParseType) : ResultDir (losslessOptions percent type) where
  files := [twoThreadsFile true, twoThreadsFile false]
  contents := twoThreadsText
  recv _ := losslessValues
  send _ := { usr := 1, sys := 1, cpu := 1, total := 1, sgp := 1000, tgp := 1204000 }
  nodup := by decide
  hasName := by
    simp only [List.forall_mem_cons]
    exact ⟨(fields_two true).1, (fields_two false).1, by simp⟩
  rounds := by decide
  reads_recv := by
    simp only [List.forall_mem_cons]
    exact ⟨fun _ => parseRecv_two, nofun, by simp⟩
  reads_send := by
    simp only [List.forall_mem_cons]
    exact ⟨nofun, fun _ => parseSend_two, by simp⟩

end RtpBenchmarks.Results
