import RtpBenchmarks.Results.Csv

set_option autoImplicit false

/-!
# Columns of a table (`parse_csv`)

`benchmark.pl` puts the results of all benchmarks into one directory, and `parse_csv` makes a
column of all files with the same thread count and the same frame rate.  Which values of which
files a column holds is followed by their position: a tag is a file and the position of a value
in it.
-/

namespace RtpBenchmarks.Results

open RtpBenchmarks.Foundation
open RtpBenchmarks.Scripts

/-! ## Result files -/

/-- What is in the name of a result file besides the role. -/
structure Configuration where
  format : List Char
  srtp : Bool
  threads : Nat
  fps : List Char
  rounds : Nat
  deriving DecidableEq, Repr

/-- A result file. -/
structure ResultFile where
  recv : Bool
  config : Configuration
  deriving DecidableEq, Repr

/-- The configuration of a run of a benchmark. -/
def configuration (b : Benchmark) (run : NamedRun) : Configuration where
  format := b.format
  srtp := b.srtp
  threads := run.thread
  fps := run.fps
  rounds := b.iter

/-- A benchmark with this configuration. -/
def Configuration.benchmark (c : Configuration) : Benchmark where
  lib := []
  file := []
  saddr := []
  raddr := []
  port := 0
  iter := c.rounds
  threads := c.threads
  genRecv := false
  sendExecs := []
  recvExecs := []
  format := c.format
  srtp := c.srtp
  fpsVals := [c.fps]

def ResultFile.role (f : ResultFile) : String :=
  if f.recv then "recv" else "send"

def ResultFile.name (f : ResultFile) : List Char :=
  logname f.role f.config.benchmark f.config.threads f.config.fps

/-- The name of a result file depends on nothing else. -/
theorem name_configuration (recv : Bool) (b : Benchmark) (run : NamedRun) :
    ResultFile.name { recv, config := configuration b run } =
      run.logname (if recv then "recv" else "send") b :=
  rfl

/-- The key of a result file. -/
def ResultFile.key (f : ResultFile) : List Char :=
  csvKey (decimal f.config.threads) f.config.fps

/-- The other file of the same configuration. -/
def ResultFile.counterpart (f : ResultFile) : ResultFile :=
  { f with recv := !f.recv }

/-- A value of a file, by its position. -/
abbrev Tag : Type := ResultFile × Nat

/-- The values of a file. -/
def ResultFile.tags (f : ResultFile) : List Tag :=
  (List.range (if f.recv then 7 else 8)).map fun i => (f, i)

/-- What a file adds to the table. -/
def ResultFile.piece (f : ResultFile) : Piece (List Char) (List Tag) where
  key := f.key
  front := f.recv
  value := f.tags

/-- `@comp`, as far as it goes into the table. -/
def column (dir : List ResultFile) (key : List Char) : Option (List Tag) :=
  ((collect (· ++ ·) (dir.map ResultFile.piece)).lookup key).map (List.take 15)

/-! ## Columns of a directory -/

/-- Every column is made of the two files of a configuration, and every file is in exactly one
column. -/
structure Paired (dir : List ResultFile) : Prop where
  column_eq : ∀ key tags, column dir key = some tags → ∃ config,
    ({ recv := true, config } : ResultFile) ∈ dir ∧
      ({ recv := false, config } : ResultFile) ∈ dir ∧
      tags = ResultFile.tags { recv := true, config } ++ ResultFile.tags { recv := false, config }
  once : ∀ f ∈ dir, ∃! key, ∃ tags, column dir key = some tags ∧ ∃ i, (f, i) ∈ tags

/-- Every file has its counterpart, and files of one role differ in the thread count or in the
number of the frame rate. -/
structure Matched (dir : List ResultFile) : Prop where
  counterpart : ∀ f ∈ dir, f.counterpart ∈ dir
  key_inj : ∀ f ∈ dir, ∀ g ∈ dir, f.recv = g.recv → f.key = g.key → f = g

section Columns

variable {dir : List ResultFile} {f g : ResultFile} {key : List Char} {tags : List Tag}

/-- The files of one role under a key. -/
def filesAt (recv : Bool) (key : List Char) (dir : List ResultFile) : List ResultFile :=
  dir.filter fun f => decide (f.key = key) && f.recv == recv

theorem mem_filesAt {recv : Bool} :
    f ∈ filesAt recv key dir ↔ f ∈ dir ∧ f.key = key ∧ f.recv = recv := by
  simp [filesAt]

theorem side_pieces (recv : Bool) (key : List Char) (dir : List ResultFile) :
    side recv key (dir.map ResultFile.piece) = (filesAt recv key dir).map ResultFile.tags := by
  rw [side, List.filter_map, List.map_map]
  rfl

theorem mem_keys_pieces :
    key ∈ (dir.map ResultFile.piece).map Piece.key ↔ ∃ f ∈ dir, f.key = key := by
  simp [ResultFile.piece]

/-- All values under a key: those of receivers, the last first, and those of senders. -/
theorem column_eq_take (dir : List ResultFile) (key : List Char) :
    column dir key = if key ∈ (dir.map ResultFile.piece).map Piece.key then
      some (((filesAt true key dir).reverse.flatMap ResultFile.tags ++
        (filesAt false key dir).flatMap ResultFile.tags).take 15) else none := by
  rw [column, lookup_collect, gathered, side_pieces, side_pieces, ← List.map_reverse,
    ← List.flatMap_def, ← List.flatMap_def]
  split_ifs <;> rfl

theorem mem_tags {i : Nat} (h : (f, i) ∈ g.tags) : f = g := by
  obtain ⟨j, -, hj⟩ := List.mem_map.mp h
  exact (congrArg Prod.fst hj).symm

/-- A file is in no column but its own. -/
theorem key_of_mem_column {i : Nat} (h : column dir key = some tags) (hmem : (f, i) ∈ tags) :
    f ∈ dir ∧ f.key = key := by
  rw [column_eq_take] at h
  split_ifs at h
  obtain rfl := Option.some.inj h
  rcases List.mem_append.mp (List.mem_of_mem_take hmem) with hmem | hmem
  · obtain ⟨g, hg, hi⟩ := List.mem_flatMap.mp hmem
    obtain rfl := mem_tags hi
    obtain ⟨hdir, hkey, -⟩ := mem_filesAt.mp (List.mem_reverse.mp hg)
    exact ⟨hdir, hkey⟩
  · obtain ⟨g, hg, hi⟩ := List.mem_flatMap.mp hmem
    obtain rfl := mem_tags hi
    obtain ⟨hdir, hkey, -⟩ := mem_filesAt.mp hg
    exact ⟨hdir, hkey⟩

theorem length_tags (f : ResultFile) : f.tags.length = if f.recv then 7 else 8 := by
  rw [ResultFile.tags, List.length_map, List.length_range]

theorem tags_eq_cons (f : ResultFile) : ∃ rest, f.tags = (f, 0) :: rest := by
  unfold ResultFile.tags
  cases f.recv <;> exact ⟨_, rfl⟩

theorem tags_inj (h : f.tags = g.tags) : f = g := by
  obtain ⟨rest, hrest⟩ := tags_eq_cons f
  exact mem_tags (h ▸ hrest ▸ List.mem_cons_self ..)

/-- Files of a configuration that are alone under their key make a column. -/
theorem column_of_filesAt (hrecv : filesAt true key dir = [f])
    (hsend : filesAt false key dir = [g]) :
    column dir key = some (f.tags ++ g.tags) := by
  have hf := mem_filesAt.mp (hrecv ▸ List.mem_singleton_self f)
  have hg := mem_filesAt.mp (hsend ▸ List.mem_singleton_self g)
  have hlength : (f.tags ++ g.tags).length ≤ 15 := by
    rw [List.length_append, length_tags, length_tags, hf.2.2, hg.2.2]
    decide
  rw [column_eq_take, if_pos (mem_keys_pieces.mpr ⟨f, hf.1, hf.2.1⟩), hrecv, hsend]
  simp only [List.reverse_singleton, List.flatMap_singleton]
  rw [List.take_of_length_le hlength]

theorem filesAt_eq_singleton (hnodup : dir.Nodup) (h : Matched dir) (hf : f ∈ dir) :
    filesAt f.recv f.key dir = [f] := by
  refine eq_singleton (hnodup.filter _) (mem_filesAt.mpr ⟨hf, rfl, rfl⟩) fun g hg => ?_
  obtain ⟨hdir, hkey, hrole⟩ := mem_filesAt.mp hg
  exact h.key_inj g hdir f hf hrole hkey

theorem Matched.paired (hnodup : dir.Nodup) (h : Matched dir) : Paired dir := by
  -- the two files of a configuration make the column of their key
  have hcolumn {config : Configuration} (hrecv : ({ recv := true, config } : ResultFile) ∈ dir)
      (hsend : ({ recv := false, config } : ResultFile) ∈ dir) :=
    column_of_filesAt (filesAt_eq_singleton hnodup h hrecv) (filesAt_eq_singleton hnodup h hsend)
  have hboth {f : ResultFile} (hf : f ∈ dir) :
      ({ recv := true, config := f.config } : ResultFile) ∈ dir ∧
        ({ recv := false, config := f.config } : ResultFile) ∈ dir := by
    have hother := h.counterpart f hf
    obtain ⟨recv, config⟩ := f
    cases recv with
    | false => exact ⟨hother, hf⟩
    | true => exact ⟨hf, hother⟩
  refine ⟨fun key tags htags => ?_, fun f hf => ?_⟩
  · have hkeys : key ∈ (dir.map ResultFile.piece).map Piece.key := by
      by_contra hnot
      rw [column_eq_take, if_neg hnot] at htags
      cases htags
    obtain ⟨f, hf, rfl⟩ := mem_keys_pieces.mp hkeys
    obtain ⟨hrecv, hsend⟩ := hboth hf
    have hsome := (hcolumn hrecv hsend).symm.trans htags
    exact ⟨f.config, hrecv, hsend, (Option.some.inj hsome).symm⟩
  · obtain ⟨hrecv, hsend⟩ := hboth hf
    refine ⟨f.key, ⟨_, hcolumn hrecv hsend, 0, ?_⟩, ?_⟩
    · rw [List.mem_append]
      obtain ⟨recv, config⟩ := f
      cases recv with
      | false => exact .inr (List.mem_cons_self ..)
      | true => exact .inl (List.mem_cons_self ..)
    · rintro key ⟨tags, htags, i, hi⟩
      exact (key_of_mem_column htags hi).2.symm

/-- A column of two files is that of the only files under its key. -/
theorem filesAt_of_column {config : Configuration} (hkey : ∃ f ∈ dir, f.key = key)
    (h : column dir key = some
      (ResultFile.tags { recv := true, config } ++ ResultFile.tags { recv := false, config })) :
    filesAt true key dir = [{ recv := true, config }] ∧
      ∃ others, filesAt false key dir = { recv := false, config } :: others := by
  rw [column_eq_take, if_pos (mem_keys_pieces.mpr hkey)] at h
  have htake := Option.some.inj h
  have hlength (f : ResultFile) (hf : f.recv = true) :
      f.tags.length = (ResultFile.tags { recv := true, config }).length := by
    rw [length_tags, length_tags, hf]
  obtain ⟨more, hmore⟩ := tags_eq_cons { recv := true, config }
  obtain ⟨more', hmore'⟩ := tags_eq_cons { recv := false, config }
  cases hreverse : (filesAt true key dir).reverse with
  | nil =>
    rw [hreverse, List.flatMap_nil, List.nil_append, hmore] at htake
    cases hsends : filesAt false key dir with
    | nil =>
      rw [hsends] at htake
      cases htake
    | cons g others =>
      obtain ⟨rest, hrest⟩ := tags_eq_cons g
      rw [hsends, List.flatMap_cons, hrest] at htake
      have hg : g = { recv := true, config } := congrArg Prod.fst (List.cons.inj htake).1
      have hrole := (mem_filesAt.mp (hsends ▸ List.mem_cons_self ..)).2.2
      rw [hg] at hrole
      cases hrole
  | cons f earlier =>
    have hf := mem_filesAt.mp (List.mem_reverse.mp (hreverse ▸ List.mem_cons_self ..))
    have hseven : f.tags.length = 7 := by rw [length_tags, hf.2.2]; rfl
    rw [hreverse, List.flatMap_cons, List.append_assoc, List.take_append, hseven,
      List.take_of_length_le (by omega)] at htake
    obtain ⟨htags, hrest⟩ := List.append_inj htake (hlength f hf.2.2)
    obtain rfl := tags_inj htags
    cases earlier with
    | nil =>
      refine ⟨by rw [← List.reverse_reverse (filesAt true key dir), hreverse]; rfl, ?_⟩
      rw [List.flatMap_nil, List.nil_append] at hrest
      cases hsends : filesAt false key dir with
      | nil =>
        rw [hsends, hmore'] at hrest
        cases hrest
      | cons g others =>
        obtain ⟨rest, hg⟩ := tags_eq_cons g
        rw [hsends, List.flatMap_cons, hg, hmore'] at hrest
        have heq : g = { recv := false, config } := congrArg Prod.fst (List.cons.inj hrest).1
        exact ⟨others, by rw [heq]⟩
    | cons f' earlier =>
      obtain ⟨rest, hf'⟩ := tags_eq_cons f'
      rw [List.flatMap_cons, hf', hmore'] at hrest
      have heq : f' = { recv := false, config } := congrArg Prod.fst (List.cons.inj hrest).1
      have hmem : f' ∈ filesAt true key dir := by
        rw [← List.mem_reverse, hreverse]
        simp
      have hrole := (mem_filesAt.mp hmem).2.2
      rw [heq] at hrole
      cases hrole

/-- Under the key of a file there are the two files of a configuration and no others. -/
theorem Paired.filesAt_eq_singleton (hnodup : dir.Nodup) (h : Paired dir) (hf : f ∈ dir) :
    ∃ config, filesAt true f.key dir = [{ recv := true, config }] ∧
      filesAt false f.key dir = [{ recv := false, config }] := by
  have hkey : ∃ g ∈ dir, g.key = f.key := ⟨f, hf, rfl⟩
  have hsome := column_eq_take dir f.key
  rw [if_pos (mem_keys_pieces.mpr hkey)] at hsome
  obtain ⟨config, -, -, htags⟩ := h.column_eq f.key _ hsome
  rw [htags] at hsome
  obtain ⟨hrecv, others, hsend⟩ := filesAt_of_column hkey hsome
  refine ⟨config, hrecv, ?_⟩
  have hnodupSend : (filesAt false f.key dir).Nodup := hnodup.filter _
  rw [hsend] at hnodupSend ⊢
  -- another sender would be in no column
  refine eq_singleton hnodupSend (List.mem_cons_self ..) fun g hg => ?_
  obtain ⟨hdir, hgkey, hrole⟩ := mem_filesAt.mp (hsend ▸ hg)
  obtain ⟨key, ⟨tags, hcolumn, i, hi⟩, -⟩ := h.once g hdir
  have hkeys := (key_of_mem_column hcolumn hi).2
  rw [← hkeys, hgkey, hsome] at hcolumn
  obtain rfl := Option.some.inj hcolumn
  rcases List.mem_append.mp hi with hi | hi
  · have hwrong := mem_tags hi
    rw [hwrong] at hrole
    cases hrole
  · exact mem_tags hi

theorem Paired.matched (hnodup : dir.Nodup) (h : Paired dir) : Matched dir := by
  have hmem {f : ResultFile} (hf : f ∈ dir) : ∃ config,
      filesAt f.recv f.key dir = [{ recv := f.recv, config }] ∧
        ({ recv := !f.recv, config } : ResultFile) ∈ dir := by
    obtain ⟨config, hrecv, hsend⟩ := h.filesAt_eq_singleton hnodup hf
    refine ⟨config, ?_⟩
    obtain ⟨recv, fconfig⟩ := f
    cases recv with
    | false => exact ⟨hsend, (mem_filesAt.mp (hrecv ▸ List.mem_singleton_self _)).1⟩
    | true => exact ⟨hrecv, (mem_filesAt.mp (hsend ▸ List.mem_singleton_self _)).1⟩
  have heq {f : ResultFile} (hf : f ∈ dir) {config : Configuration}
      (hfiles : filesAt f.recv f.key dir = [{ recv := f.recv, config }]) :
      f = { recv := f.recv, config } := by
    have hin : f ∈ filesAt f.recv f.key dir := mem_filesAt.mpr ⟨hf, rfl, rfl⟩
    rw [hfiles] at hin
    exact List.mem_singleton.mp hin
  refine ⟨fun f hf => ?_, fun f hf g hg hrole hkey => ?_⟩
  · obtain ⟨config, hfiles, hother⟩ := hmem hf
    have hconfig := congrArg ResultFile.config (heq hf hfiles)
    rw [ResultFile.counterpart, hconfig]
    exact hother
  · obtain ⟨config, hfiles, -⟩ := hmem hf
    have hgfiles : filesAt g.recv g.key dir = [{ recv := g.recv, config }] := by
      rw [← hrole, ← hkey, hfiles]
    rw [heq hf hfiles, heq hg hgfiles, hrole]

theorem paired_iff (hnodup : dir.Nodup) : Paired dir ↔ Matched dir :=
  ⟨fun h => h.matched hnodup, fun h => h.paired hnodup⟩

end Columns

/-! ## The table of a directory -/

/-- The file of the directory with its contents. -/
def ResultFile.file (contents : ResultFile → List Char) (f : ResultFile) : CsvFile where
  name := f.name
  text := contents f

/-- What is under a key of the table are the values that the tags of its column say. -/
def TableHolds (o : CsvOptions) (contents : ResultFile → List Char)
    (entries : ResultFile → Piece (List Char) (List (List Char))) (dir : List ResultFile) : Prop :=
  ∃ s, csvFiles o (dir.map (ResultFile.file contents)) = some s ∧
    (∀ key, key ∈ s.resultIds ↔ (column dir key).isSome = true) ∧
    ∀ key tags, column dir key = some tags → ∃ text, s.resultIds.lookup key = some text ∧
      (words isSpace text).take 15 = tags.map fun t => (entries t.1).value.getD t.2 []

/-- A name with one of the formats and a frame rate of digits. -/
def Configuration.HasName (c : Configuration) : Prop :=
  c.format ∈ formats.map String.toList ∧ IsDigits c.fps

instance (c : Configuration) : Decidable c.HasName :=
  inferInstanceAs (Decidable (_ ∧ _))

section Table

variable {o : CsvOptions} {contents : ResultFile → List Char}
  {entries : ResultFile → Piece (List Char) (List (List Char))} {dir : List ResultFile}
  {f : ResultFile}

theorem ResultFile.role_mem (f : ResultFile) : f.role ∈ roles := by
  unfold ResultFile.role
  cases f.recv <;> decide

theorem csvFields_name (h : f.config.HasName) :
    csvFields f.name = (decimal f.config.threads, f.config.fps, decimal f.config.rounds) := by
  have hsearch := @search_logname f.role f.config.benchmark f.config.threads f.config.fps
    f.role_mem h.1 h.2
  rw [csvFields, ResultFile.name, hsearch]
  rfl

theorem isRecvFile_file (h : f.config.HasName) : isRecvFile (f.file contents) = f.recv := by
  have hrole := (@occursIn_role f.role f.config.benchmark f.config.fps f.role_mem h.1
    f.config.threads h.2).1
  rw [isRecvFile, ResultFile.file]
  refine hrole.trans ?_
  unfold ResultFile.role
  cases f.recv <;> decide

theorem map_range_getD (l : List (List Char)) (n : Nat) (h : l.length = n) :
    (List.range n).map (fun i => l.getD i []) = l := by
  subst h
  refine List.ext_getElem (by simp) fun i _ hi => ?_
  simp [hi]

/-- What a file adds to the table goes under its key, on the side of its role. -/
theorem entry_eq (h : f.config.HasName) (hreads : Reads o (f.file contents) (entries f)) :
    entries f =
      { key := f.key, front := f.recv
        value := f.tags.map fun t => (entries t.1).value.getD t.2 [] } := by
  obtain ⟨hkey, hfront, hlength⟩ := hreads.shape
  rw [isRecvFile_file h] at hfront
  have hfields : csvFields (f.file contents).name = csvFields f.name := rfl
  rw [hfields, csvFields_name h] at hkey
  have hvalue : f.tags.map (fun t => (entries t.1).value.getD t.2 []) = (entries f).value := by
    rw [hfront] at hlength
    rw [ResultFile.tags, List.map_map]
    exact map_range_getD _ _ hlength
  rw [hvalue]
  cases hentry : entries f
  rw [hentry] at hkey hfront
  rw [← hfront]
  exact congrArg (fun key => ({ key, front := _, value := _ } : Piece _ _)) hkey

/-- The tags of the columns are right. -/
theorem tableHolds (h : ∀ f ∈ dir, f.config.HasName)
    (hreads : ∀ f ∈ dir, Reads o (f.file contents) (entries f)) :
    TableHolds o contents entries dir := by
  obtain ⟨s, hrun, hids, -, -⟩ := csvFiles_reads hreads
  have htext : (dir.map fun f => textPiece (entries f)) = (dir.map entries).map textPiece := by
    rw [List.map_map]
    rfl
  have hpieces : dir.map entries = (dir.map ResultFile.piece).map fun p =>
      { p with value := p.value.map fun t => (entries t.1).value.getD t.2 [] } := by
    rw [List.map_map]
    exact List.map_congr_left fun f hf => entry_eq (h f hf) (hreads f hf)
  have hkeys : (dir.map entries).map Piece.key = (dir.map ResultFile.piece).map Piece.key := by
    rw [hpieces, List.map_map]
    rfl
  have hwords : ∀ entry ∈ dir.map entries, HasWords entry.value := by
    intro entry hentry
    obtain ⟨f, hf, rfl⟩ := List.mem_map.mp hentry
    exact (hreads f hf).hasWords
  refine ⟨s, hrun, fun key => ?_, fun key tags htags => ?_⟩
  · rw [AList.mem_keys, hids, htext, mem_keys_collect, List.map_map]
    have hkey : (Piece.key ∘ textPiece : Piece (List Char) (List (List Char)) → List Char) =
        Piece.key := rfl
    rw [hkey, hkeys, column_eq_take]
    split_ifs with hmem
    · exact iff_of_true hmem rfl
    · exact iff_of_false hmem Bool.false_ne_true
  · have hmem : key ∈ (dir.map ResultFile.piece).map Piece.key := by
      by_contra hnot
      rw [column_eq_take, if_neg hnot] at htags
      cases htags
    obtain ⟨text, hlookup, htextWords⟩ := lookup_textPieces hwords (hkeys ▸ hmem)
    rw [column, lookup_collect, if_pos hmem] at htags
    obtain rfl := Option.some.inj htags
    refine ⟨text, by rw [hids, htext, hlookup], ?_⟩
    rw [htextWords, hpieces, gathered_map, List.map_take]

end Table

/-- Both files of a configuration. -/
def bothFiles (config : Configuration) : List ResultFile :=
  [{ recv := false, config }, { recv := true, config }]

/-- A benchmark of one format. -/
def oneFormat (format : String) : Configuration where
  format := format.toList
  srtp := false
  threads := 1
  fps := "30".toList
  rounds := 10

end RtpBenchmarks.Results
