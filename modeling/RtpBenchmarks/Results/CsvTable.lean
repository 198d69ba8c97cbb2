import Mathlib.Data.List.GetD
import RtpBenchmarks.Foundation.Grouping
import RtpBenchmarks.Results.CsvColumns

set_option autoImplicit false

/-!
# Blocks of a table (`parse_csv`)

The columns of a thread count make a block under its heading.  `parse_csv` writes a block when
it comes to the next thread count, and before the first heading too, unless that is for one
thread.
-/

namespace RtpBenchmarks.Results

open RtpBenchmarks.Foundation

/-! ## Sets of results -/

/-- `"$threads $fps"` for numbers. -/
def configKey (config : Nat × Nat) : List Char :=
  csvKey (decimal config.1) (decimal config.2)

/-- A file with results of a thread count and a frame rate, and the values in it. -/
structure IsResult (o : CsvOptions) (config : Nat × Nat) (recv : Bool) (file : CsvFile)
    (values : List (List Char)) : Prop where
  threads_eq : (csvFields file.name).1 = decimal config.1
  fps_eq : (csvFields file.name).2.1 = decimal config.2
  reads : ∃ key, Reads o file { key, front := recv, value := values }

/-- A set of thread counts and frame rates, with a file of a receiver and a file of a sender
for each. -/
structure ResultSet (o : CsvOptions) where
  configs : List (Nat × Nat)
  file : Nat × Nat → Bool → CsvFile
  values : Nat × Nat → Bool → List (List Char)
  nodup : configs.Nodup
  nonempty : configs ≠ []
  threads_pos : ∀ config ∈ configs, 1 ≤ config.1
  fps_lt : ∀ config ∈ configs, config.2 < 100000
  isResult : ∀ config ∈ configs, ∀ recv,
    IsResult o config recv (file config recv) (values config recv)

/-- The files of the set. -/
def ResultSet.files {o : CsvOptions} (r : ResultSet o) : List ((Nat × Nat) × Bool) :=
  r.configs.flatMap fun config => [(config, true), (config, false)]

/-- The directory lists the files of the set in some order, among others that have no role. -/
def ResultSet.Lists {o : CsvOptions} (r : ResultSet o) (dir : List CsvFile) : Prop :=
  ∃ order : List ((Nat × Nat) × Bool), order.Perm r.files ∧
    dir.filter isResultFile = order.map fun i => r.file i.1 i.2

/-- The value that a row should have in the column of a configuration: one from the file of the
receiver for the last seven rows, one from the file of the sender for the others. -/
def ResultSet.value {o : CsvOptions} (r : ResultSet o) (config : Nat × Nat) (i : Nat) :
    List Char :=
  if i < 7 then (r.values config true).getD i [] else (r.values config false).getD (i - 7) []

/-- The heading and the block that a thread count should have. -/
def ResultSet.groupText {o : CsvOptions} (r : ResultSet o) (group : Nat × List Nat) :
    List Char :=
  csvHeading (decimal group.1) ++ (csvRows o.unit).flatMap fun row =>
    row.1 ++ join [';'] (group.2.map fun fps => r.value (group.1, fps) row.2.1) ++ row.2.2

/-- In whatever order the files are listed, the text that is written has for each thread count
its heading and its block, one column for each frame rate in ascending order, after some text
that is always the same. -/
def ResultSet.Writes {o : CsvOptions} (r : ResultSet o) (before : List Char) : Prop :=
  (∀ config ∈ r.configs, r.value config 13 = decimal config.2) ∧
    ∃ groups, Grouped r.configs groups ∧
      ∀ dir, r.Lists dir →
        parseCsv o dir = some (csvPreamble o ++ before ++ groups.flatMap r.groupText)

/-! ## Keys -/

section Keys

variable {config config' : Nat × Nat}

theorem configKey_eq (config : Nat × Nat) :
    configKey config = decimal config.1 ++ ' ' :: padded 5 config.2 := by
  rw [configKey, csvKey, digitsValue_decimal]

theorem configKey_inj (h : configKey config = configKey config') : config = config' := by
  rw [configKey_eq, configKey_eq] at h
  obtain ⟨hthreads, hfps⟩ := decimal_append_inj rfl h
  have hvalue := congrArg digitsValue hfps
  rw [digitsValue_padded, digitsValue_padded] at hvalue
  exact Prod.ext hthreads hvalue

/-- `(split " ", $key)[0]`. -/
theorem words_configKey (config : Nat × Nat) :
    (words isSpace (configKey config)).headD [] = decimal config.1 := by
  rw [configKey_eq, words_cons (isWord_of_isDigits (isDigits_decimal config.1)) rfl]
  rfl

theorem textLe_configKey_of_threads (hne : config.1 ≠ config'.1)
    (h : textLe (decimal config.1) (decimal config'.1) = true) :
    textLe (configKey config) (configKey config') = true := by
  rw [configKey_eq, configKey_eq]
  refine textLe_append_cons (fun c hc => ?_) h (fun heq => hne ?_) _ _
  · exact Nat.lt_of_lt_of_le (by decide) (toNat_of_isDigit ((isDigits_decimal _).2 c hc)).1
  · rw [← digitsValue_decimal config.1, heq, digitsValue_decimal]

theorem textLe_configKey_of_fps {threads fps fps' : Nat} (h : fps < fps') (hfps : fps' < 100000) :
    textLe (configKey (threads, fps)) (configKey (threads, fps')) = true := by
  rw [configKey_eq, configKey_eq, textLe_append_left, textLe_cons_self]
  exact textLe_padded (by decide) (Nat.lt_trans h hfps) hfps h

end Keys

/-! ## The loop over the keys -/

section Loop

variable {unit : String} {text : Nat × Nat → List Char}

/-- A key with what is under it. -/
def keyed (text : Nat × Nat → List Char) (config : Nat × Nat) : List Char × List Char :=
  (configKey config, text config)

theorem csvLoop_keyed (text : Nat × Nat → List Char) (previous : Nat)
    (columns : List (List (List Char))) (config : Nat × Nat)
    (rest : List (List Char × List Char)) :
    csvLoop unit previous columns (keyed text config :: rest) =
      if config.1 = previous then
        csvLoop unit previous (columns ++ [words isSpace (text config)]) rest
      else
        (if config.1 = 1 then [] else csvBlock unit columns) ++ csvHeading (decimal config.1) ++
          csvLoop unit config.1 [words isSpace (text config)] rest := by
  have hone : decimal config.1 = ['1'] ↔ config.1 = 1 := by
    constructor
    · intro h
      rw [← digitsValue_decimal config.1, h]
      rfl
    · rintro h
      rw [h]
      rfl
  simp only [keyed, csvLoop, words_configKey, digitsValue_decimal, ne_eq, hone, ite_not]

/-- The columns of a thread count are kept until the next one. -/
theorem csvLoop_group (threads : Nat) (columns : List (List (List Char))) (fpss : List Nat)
    (rest : List (List Char × List Char)) :
    csvLoop unit threads columns ((fpss.map fun fps => keyed text (threads, fps)) ++ rest) =
      csvLoop unit threads
        (columns ++ fpss.map fun fps => words isSpace (text (threads, fps))) rest := by
  induction fpss generalizing columns with
  | nil => rw [List.map_nil, List.map_nil, List.append_nil, List.nil_append]
  | cons fps fpss ih =>
    rw [List.map_cons, List.cons_append, csvLoop_keyed, if_pos rfl, ih, List.append_assoc]
    rfl

/-- The heading and the block that a group gets. -/
def groupBlock (unit : String) (text : Nat × Nat → List Char) (group : Nat × List Nat) :
    List Char :=
  csvHeading (decimal group.1) ++
    csvBlock unit (group.2.map fun fps => words isSpace (text (group.1, fps)))

/-- The columns so far come in front of the heading of a new group. -/
theorem csvLoop_new {previous : Nat} {group : Nat × List Nat} (hne : group.2 ≠ [])
    (hnew : group.1 ≠ previous) (columns : List (List (List Char)))
    (rest : List (List Char × List Char)) :
    csvLoop unit previous columns
        ((group.2.map fun fps => keyed text (group.1, fps)) ++ rest) =
      (if group.1 = 1 then [] else csvBlock unit columns) ++ csvHeading (decimal group.1) ++
        csvLoop unit group.1 (group.2.map fun fps => words isSpace (text (group.1, fps))) rest := by
  obtain ⟨threads, fpss⟩ := group
  obtain ⟨fps, fpss, rfl⟩ := List.exists_cons_of_ne_nil hne
  rw [List.map_cons, List.cons_append, csvLoop_keyed, if_neg hnew, csvLoop_group]
  rfl

theorem keyed_ungroup_cons (text : Nat × Nat → List Char) (g : Nat × List Nat)
    (groups : List (Nat × List Nat)) :
    (ungroup (g :: groups)).map (keyed text) =
      (g.2.map fun fps => keyed text (g.1, fps)) ++ (ungroup groups).map (keyed text) := by
  rw [ungroup, List.flatMap_cons, List.map_append, List.map_map]
  rfl

/-- No group is for one thread: the columns so far come first, then the groups. -/
theorem csvLoop_groups_of_ne {previous : Nat} {groups : List (Nat × List Nat)}
    (hne : ∀ g ∈ groups, g.2 ≠ []) (hone : ∀ g ∈ groups, g.1 ≠ 1)
    (hnodup : (groups.map Prod.fst).Nodup) (hnew : ∀ g ∈ groups, g.1 ≠ previous)
    (columns : List (List (List Char))) :
    csvLoop unit previous columns ((ungroup groups).map (keyed text)) =
      csvBlock unit columns ++ groups.flatMap (groupBlock unit text) := by
  induction groups generalizing previous columns with
  | nil => exact (List.append_nil _).symm
  | cons g groups ih =>
    obtain ⟨hgne, hne⟩ := List.forall_mem_cons.mp hne
    obtain ⟨hgone, hone⟩ := List.forall_mem_cons.mp hone
    obtain ⟨hgnew, -⟩ := List.forall_mem_cons.mp hnew
    obtain ⟨hother, hnodup⟩ := List.nodup_cons.mp hnodup
    have hgroups : ∀ g' ∈ groups, g'.1 ≠ g.1 := fun g' hg' heq =>
      hother (heq ▸ List.mem_map_of_mem hg')
    rw [keyed_ungroup_cons, csvLoop_new hgne hgnew, if_neg hgone, ih hne hone hnodup hgroups,
      List.flatMap_cons, groupBlock]
    simp only [List.append_assoc]

end Loop

/-! ## The files of a set -/

section Table

variable {o : CsvOptions} (r : ResultSet o) {config : Nat × Nat} {dir : List CsvFile}

/-- What a file of the set adds to the table. -/
def ResultSet.piece (i : (Nat × Nat) × Bool) : Piece (List Char) (List (List Char)) where
  key := configKey i.1
  front := i.2
  value := r.values i.1 i.2

theorem ResultSet.mem_files {i : (Nat × Nat) × Bool} : i ∈ r.files ↔ i.1 ∈ r.configs := by
  obtain ⟨config, recv⟩ := i
  cases recv <;> simp [files]

theorem ResultSet.nodup_files : r.files.Nodup := by
  refine List.pairwise_flatMap.mpr ⟨fun config _ => by simp, r.nodup.imp ?_⟩
  intro config config' hne i hi i' hi' heq
  have hfst (c : Nat × Nat) (i : (Nat × Nat) × Bool) (h : i ∈ [(c, true), (c, false)]) :
      i.1 = c := by
    simp only [List.mem_cons, List.not_mem_nil, or_false] at h
    rcases h with rfl | rfl <;> rfl
  exact hne (by rw [← hfst config i hi, heq, hfst config' i' hi'])

theorem ResultSet.reads_piece {i : (Nat × Nat) × Bool} (h : i.1 ∈ r.configs) :
    Reads o (r.file i.1 i.2) (r.piece i) := by
  obtain ⟨hthreads, hfps, key, hreads⟩ := r.isResult i.1 h i.2
  have hkey : key = configKey i.1 := by
    rw [configKey, ← hthreads, ← hfps]
    exact hreads.shape.1
  rw [hkey] at hreads
  exact hreads

theorem ResultSet.length_values (h : config ∈ r.configs) :
    (r.values config true).length = 7 ∧ (r.values config false).length = 8 :=
  ⟨(@reads_piece _ r (config, true) h).shape.2.2, (@reads_piece _ r (config, false) h).shape.2.2⟩

/-- `$ofps` is the seventh value of a sender. -/
theorem Reads.fps {file : CsvFile} {entry : Piece (List Char) (List (List Char))}
    (h : Reads o file entry) (hside : entry.front = false) :
    entry.value.getD 6 [] = (csvFields file.name).2.1 := by
  obtain ⟨-, -, hentry⟩ := h
  unfold csvEntry at hentry
  dsimp only at hentry
  split_ifs at hentry
  · obtain ⟨v, -, rfl⟩ := Option.map_eq_some_iff.mp hentry
    cases hside
  · obtain ⟨v, -, rfl⟩ := Option.map_eq_some_iff.mp hentry
    rfl

theorem ResultSet.value_fps (h : config ∈ r.configs) : r.value config 13 = decimal config.2 := by
  obtain ⟨-, hfps, -⟩ := r.isResult config h false
  exact ((@reads_piece _ r (config, false) h).fps rfl).trans hfps

/-- The values of a row are taken from the column. -/
theorem ResultSet.value_eq (h : config ∈ r.configs) (i : Nat) :
    (r.values config true ++ r.values config false).getD i [] = r.value config i := by
  obtain ⟨hrecv, -⟩ := r.length_values h
  rw [value]
  split_ifs with hi
  · rw [List.getD_append _ _ _ _ (by omega)]
  · rw [List.getD_append_right _ _ _ _ (by omega), hrecv]

/-- Each configuration has one file of either role. -/
theorem ResultSet.countP_files (front : Bool) :
    r.files.countP (fun i => (r.piece i).front == front) = r.configs.length := by
  rw [ResultSet.files]
  induction r.configs with
  | nil => rfl
  | cons config configs ih =>
    rw [List.flatMap_cons, List.countP_append, ih, List.length_cons, Nat.add_comm]
    cases front <;> rfl

/-- All files of the set are read, whatever their order, and under each key the values of the
receiver are in front of those of the sender. -/
theorem ResultSet.csvFiles_lists (h : r.Lists dir) :
    ∃ s, csvFiles o dir = some s ∧ s.recvPresent = s.sendPresent ∧
      (∀ key, key ∈ s.resultIds.keys ↔ ∃ config ∈ r.configs, configKey config = key) ∧
      ∀ config ∈ r.configs, ∃ text, s.resultIds.lookup (configKey config) = some text ∧
        words isSpace text = r.values config true ++ r.values config false := by
  obtain ⟨order, hperm, hdir⟩ := h
  have hmem {i : (Nat × Nat) × Bool} : i ∈ order ↔ i.1 ∈ r.configs :=
    hperm.mem_iff.trans r.mem_files
  have hnodup : order.Nodup := hperm.nodup_iff.mpr r.nodup_files
  have hreads : ∀ i ∈ order, Reads o (r.file i.1 i.2) (r.piece i) :=
    fun i hi => r.reads_piece (hmem.mp hi)
  obtain ⟨s, hrun, hids, hrecv, hsend⟩ := csvFiles_reads hreads
  have hpieces : (order.map fun i => textPiece (r.piece i)) =
      (order.map r.piece).map textPiece := by
    rw [List.map_map]
    rfl
  have hkeys {key : List Char} : key ∈ (order.map r.piece).map Piece.key ↔
      ∃ config ∈ r.configs, configKey config = key := by
    simp only [List.map_map, List.mem_map, Function.comp_apply]
    constructor
    · rintro ⟨i, hi, rfl⟩
      exact ⟨i.1, hmem.mp hi, rfl⟩
    · rintro ⟨config, hconfig, rfl⟩
      exact ⟨(config, true), hmem.mpr hconfig, rfl⟩
  have hwords : ∀ entry ∈ order.map r.piece, HasWords entry.value := by
    intro entry hentry
    obtain ⟨i, hi, rfl⟩ := List.mem_map.mp hentry
    exact (hreads i hi).hasWords
  refine ⟨s, ?_, ?_, fun key => ?_, fun config hconfig => ?_⟩
  · rw [← hrun, ← hdir, csvFiles, csvFiles, List.filter_filter]
    simp only [Bool.and_self]
  · have htrue := r.countP_files true
    have hfalse := r.countP_files false
    simp only [beq_true, beq_false] at htrue hfalse
    rw [hrecv, hsend, hperm.countP_eq, hperm.countP_eq, htrue, hfalse]
  · rw [hids, hpieces, mem_keys_collect, List.map_map]
    exact hkeys
  · obtain ⟨text, hlookup, htext⟩ := lookup_textPieces hwords
      (hkeys.mpr ⟨config, hconfig, rfl⟩)
    have hside (recv : Bool) :
        side recv (configKey config) (order.map r.piece) = [r.values config recv] := by
      refine @side_map_eq_singleton _ _ _ _ order (config, recv) r.piece hnodup
        (hmem.mpr hconfig) fun j _ hkey hfront => ?_
      exact Prod.ext (configKey_inj hkey) hfront
    refine ⟨text, by rw [hids, hpieces, hlookup], ?_⟩
    rw [htext, gathered_of_sides (hside true) (hside false)]

/-! ## The groups of a set -/

/-- The groups in the order in which `sort` leaves their thread counts. -/
def ResultSet.groups : List (Nat × List Nat) :=
  group (fun threads threads' => textLe (decimal threads) (decimal threads')) r.configs

theorem ResultSet.grouped_groups : Grouped r.configs r.groups :=
  grouped_group _ r.nodup

theorem ResultSet.pairwise_groups :
    (r.groups.map Prod.fst).Pairwise fun threads threads' =>
      textLe (decimal threads) (decimal threads') = true := by
  rw [ResultSet.groups, map_fst_group]
  exact List.pairwise_mergeSort (fun n m k => textLe_trans (decimal n) (decimal m) (decimal k))
    (fun n m => textLe_total (decimal n) (decimal m)) _

theorem ResultSet.mem_ungroup_groups : config ∈ ungroup r.groups ↔ config ∈ r.configs :=
  mem_ungroup.trans (r.grouped_groups.mem_iff config).symm

/-- The keys of the groups, one after the other, are in order. -/
theorem ResultSet.pairwise_configKey :
    ((ungroup r.groups).map configKey).Pairwise fun key key' => textLe key key' = true := by
  have hgrouped := r.grouped_groups
  refine List.pairwise_map.mpr (pairwise_ungroup (fun g hg => ?_) ?_)
  · refine (hgrouped.ascending g hg).imp_of_mem fun _ hfps' hlt => ?_
    exact textLe_configKey_of_fps hlt
      (r.fps_lt _ ((hgrouped.mem_iff (g.1, _)).mpr ⟨g, hg, rfl, hfps'⟩))
  · have hne := List.pairwise_map.mp hgrouped.nodup
    exact (hne.and (List.pairwise_map.mp r.pairwise_groups)).imp fun h _ _ _ _ =>
      textLe_configKey_of_threads h.1 h.2

/-- `sort(keys %result_ids)` are the keys of the groups. -/
theorem ResultSet.sort_keys {ids : AList fun _ : List Char => List Char}
    (h : ∀ key, key ∈ ids.keys ↔ ∃ config ∈ r.configs, configKey config = key) :
    ids.keys.mergeSort textLe = (ungroup r.groups).map configKey := by
  have hnodup : ((ungroup r.groups).map configKey).Nodup :=
    r.grouped_groups.nodup_ungroup.map fun _ _ => configKey_inj
  refine mergeSort_texts ((List.perm_ext_iff_of_nodup ids.keys_nodup hnodup).mpr fun key => ?_)
    r.pairwise_configKey
  rw [h, List.mem_map]
  simp only [r.mem_ungroup_groups]

/-- The block of a group holds the values of its files. -/
theorem ResultSet.groupBlock_eq {text : Nat × Nat → List Char}
    (h : ∀ config ∈ r.configs,
      words isSpace (text config) = r.values config true ++ r.values config false)
    {g : Nat × List Nat} (hg : g ∈ r.groups) :
    groupBlock o.unit text g = r.groupText g := by
  have hvalue (i : Nat) : (g.2.map fun fps => words isSpace (text (g.1, fps))).map
      (fun comp => comp.getD i []) = g.2.map fun fps => r.value (g.1, fps) i := by
    rw [List.map_map]
    refine List.map_congr_left fun fps hfps => ?_
    have hconfig : (g.1, fps) ∈ r.configs :=
      (r.grouped_groups.mem_iff (g.1, fps)).mpr ⟨g, hg, rfl, hfps⟩
    rw [Function.comp_apply, h _ hconfig, r.value_eq hconfig]
  simp only [groupBlock, ResultSet.groupText, csvBlock, hvalue]

/-- One thread comes first. -/
theorem ResultSet.groups_of_one {fps : Nat} (h : (1, fps) ∈ r.configs) :
    ∃ g groups, r.groups = g :: groups ∧ g.1 = 1 := by
  obtain ⟨g', hg', hone, -⟩ := (r.grouped_groups.mem_iff _).mp h
  cases hgroups : r.groups with
  | nil =>
    rw [hgroups] at hg'
    cases hg'
  | cons g groups =>
    refine ⟨g, groups, rfl, ?_⟩
    have hpos : 0 < g.1 := by
      have hmem : g ∈ r.groups := hgroups ▸ List.mem_cons_self ..
      obtain ⟨fps', hfps'⟩ := List.exists_mem_of_ne_nil _ (r.grouped_groups.nonempty g hmem)
      exact r.threads_pos _ ((r.grouped_groups.mem_iff (g.1, fps')).mpr ⟨g, hmem, rfl, hfps'⟩)
    rw [hgroups, List.mem_cons] at hg'
    rcases hg' with rfl | hlater
    · exact hone
    · have hfirst := r.pairwise_groups
      rw [hgroups, List.map_cons, List.pairwise_cons] at hfirst
      have hle := hfirst.1 g'.1 (List.mem_map_of_mem hlater)
      rw [hone] at hle
      have heq := textLe_antisymm hle (textLe_decimal_one hpos)
      rw [← digitsValue_decimal g.1, heq, digitsValue_decimal]

/-- What is written before the first heading: a block without columns, unless it is for one
thread. -/
def ResultSet.before : List Char :=
  if ∃ config ∈ r.configs, config.1 = 1 then [] else csvBlock o.unit []

/-- The loop over the sorted keys writes the groups. -/
theorem ResultSet.csvLoop_groups {text : Nat × Nat → List Char}
    (h : ∀ config ∈ r.configs,
      words isSpace (text config) = r.values config true ++ r.values config false) :
    csvLoop o.unit 0 [] ((ungroup r.groups).map (keyed text)) =
      r.before ++ r.groups.flatMap r.groupText := by
  have hgrouped := r.grouped_groups
  have hflat : r.groups.flatMap (groupBlock o.unit text) = r.groups.flatMap r.groupText :=
    List.flatMap_congr fun g hg => r.groupBlock_eq h hg
  have hconfig {g : Nat × List Nat} (hg : g ∈ r.groups) : ∃ fps, (g.1, fps) ∈ r.configs := by
    obtain ⟨fps, hfps⟩ := List.exists_mem_of_ne_nil _ (hgrouped.nonempty g hg)
    exact ⟨fps, (hgrouped.mem_iff (g.1, fps)).mpr ⟨g, hg, rfl, hfps⟩⟩
  have hzero : ∀ g ∈ r.groups, g.1 ≠ 0 := fun g hg heq => by
    obtain ⟨fps, hfps⟩ := hconfig hg
    have hpos := r.threads_pos _ hfps
    rw [heq] at hpos
    cases hpos
  rw [← hflat, before]
  split_ifs with hone
  · obtain ⟨⟨_, fps⟩, hmem, rfl⟩ := hone
    obtain ⟨g, groups, hgroups, hg⟩ := r.groups_of_one hmem
    have hne := hgrouped.nonempty
    have hnodup := hgrouped.nodup
    rw [hgroups] at hne hnodup ⊢
    obtain ⟨hgne, hne⟩ := List.forall_mem_cons.mp hne
    obtain ⟨hother, hnodup⟩ := List.nodup_cons.mp hnodup
    have hnew : ∀ g' ∈ groups, g'.1 ≠ g.1 := fun g' hg' heq =>
      hother (heq ▸ List.mem_map_of_mem hg')
    rw [keyed_ungroup_cons, csvLoop_new hgne (by omega), if_pos hg,
      csvLoop_groups_of_ne hne (fun g' hg' heq => hnew g' hg' (heq.trans hg.symm)) hnodup hnew,
      List.flatMap_cons, groupBlock]
    simp only [List.nil_append, List.append_assoc]
  · refine csvLoop_groups_of_ne hgrouped.nonempty (fun g hg heq => hone ?_) hgrouped.nodup hzero _
    obtain ⟨fps, hfps⟩ := hconfig hg
    exact ⟨_, hfps, heq⟩

/-- The text that is written, whatever the order of the files. -/
theorem ResultSet.parseCsv_lists (h : r.Lists dir) :
    parseCsv o dir = some (csvPreamble o ++ r.before ++ r.groups.flatMap r.groupText) := by
  obtain ⟨s, hrun, hcounts, hkeys, hlookups⟩ := r.csvFiles_lists h
  have hids : sortedIds s.resultIds = (ungroup r.groups).map
      (keyed fun config => (s.resultIds.lookup (configKey config)).getD []) := by
    rw [sortedIds, r.sort_keys hkeys, List.map_map]
    rfl
  have hwords : ∀ config ∈ r.configs,
      words isSpace ((s.resultIds.lookup (configKey config)).getD []) =
        r.values config true ++ r.values config false := by
    intro config hconfig
    obtain ⟨text, hlookup, htext⟩ := hlookups config hconfig
    rw [hlookup, Option.getD_some, htext]
  simp only [parseCsv, hrun, Option.bind_eq_bind, Option.bind_some, hcounts, ne_eq,
    not_true_eq_false, if_false]
  rw [hids, r.csvLoop_groups hwords, List.append_assoc]

/-- A directory that lists the files of the set. -/
theorem ResultSet.exists_lists : ∃ dir, r.Lists dir := by
  refine ⟨r.files.map fun i => r.file i.1 i.2, r.files, .refl _, List.filter_eq_self.mpr ?_⟩
  intro file hfile
  obtain ⟨i, hi, rfl⟩ := List.mem_map.mp hfile
  exact (r.reads_piece (r.mem_files.mp hi)).1

theorem ResultSet.writes_before : r.Writes r.before :=
  ⟨fun _ hconfig => r.value_fps hconfig, r.groups, r.grouped_groups, fun _ h => r.parseCsv_lists h⟩

/-- Groups start with a digit. -/
theorem ResultSet.exists_digit {groups : List (Nat × List Nat)} (h : Grouped r.configs groups) :
    ∃ c text, groups.flatMap r.groupText = c :: text ∧ c.isDigit = true := by
  obtain ⟨config, hconfig⟩ := List.exists_mem_of_ne_nil _ r.nonempty
  obtain ⟨g, hg, -⟩ := (h.mem_iff config).mp hconfig
  cases groups with
  | nil => cases hg
  | cons g groups =>
    have hdigits := isDigits_decimal g.1
    obtain ⟨c, cs, hcons⟩ := List.exists_cons_of_ne_nil hdigits.1
    rw [List.flatMap_cons, groupText, csvHeading, hcons]
    exact ⟨c, _, rfl, hdigits.2 c (hcons ▸ List.mem_cons_self ..)⟩

/-- A block starts with a letter, and so it is not taken for a group. -/
theorem ResultSet.writes_nil_iff : r.Writes [] ↔ ∃ config ∈ r.configs, config.1 = 1 := by
  have hbefore := r.writes_before
  unfold before at hbefore
  constructor
  · rintro ⟨-, groups, hgroups, hwrites⟩
    by_contra hnone
    obtain ⟨dir, hdir⟩ := r.exists_lists
    obtain ⟨c, text, htext, hc⟩ := r.exists_digit hgroups
    have hboth := (hwrites dir hdir).symm.trans (r.parseCsv_lists hdir)
    rw [before, if_neg hnone, List.append_nil, List.append_assoc] at hboth
    have hcancel := List.append_cancel_left (Option.some.inj hboth)
    rw [htext] at hcancel
    obtain ⟨rfl, -⟩ := List.cons.inj hcancel
    exact absurd hc (by decide)
  · intro hone
    rwa [if_pos hone] at hbefore

end Table

/-- The table of a set of results: what comes before the first heading, and when it is nothing,
so that there is one block for each thread count and no other. -/
theorem csv_blocks {o : CsvOptions} (r : ResultSet o) :
    r.Writes (if ∃ config ∈ r.configs, config.1 = 1 then [] else csvBlock o.unit []) ∧
      (r.Writes [] ↔ ∃ config ∈ r.configs, config.1 = 1) :=
  ⟨r.writes_before, r.writes_nil_iff⟩

/-! ## Results of two threads alone -/

/-- The text of a whole number. -/
def wholeNumber (q : ℚ) : List Char :=
  decimal q.num.natAbs

/-- A file of 602000000 bytes in 602 frames. -/
def megabytes : CsvOptions where
  lib := "uvgrtp"
  iter := []
  unit := "MB"
  filesize := 602000000
  number := wholeNumber
  isWord_number _ := isWord_of_isDigits (isDigits_decimal _)

/-- The report of a program that runs for a second. -/
def secondReport : TimeReport where
  user := 100
  system := 100
  elapsed := 100
  elapsed_lt := by decide
  cpu := 100
  avgtext := 0
  avgdata := 0
  maxresident := 5432
  inputs := 0
  outputs := 8
  major := 0
  minor := 300
  swaps := 0

/-- A run of two receivers that lose nothing. -/
def receiveRun : RunLog ReceiveResult 2 where
  results := [⟨602000000, 602, 602⟩, ⟨602000000, 602, 602⟩]
  length_results := rfl
  command := none
  report := secondReport

/-- A run of two senders. -/
def sendRunOfTwo : RunLog SendResult 2 where
  results := [⟨602000000, 602⟩, ⟨602000000, 602⟩]
  length_results := rfl
  command := none
  report := secondReport

/-- The name of a file of two threads. -/
def twoThreadsFile (recv : Bool) : ResultFile where
  recv := recv
  config :=
    { format := "hevc".toList, srtp := false, threads := 2, fps := "30".toList, rounds := 1 }

def twoThreadsText (f : ResultFile) : List Char :=
  if f.recv then resultText ReceiveResult.line [receiveRun]
  else resultText SendResult.line [sendRunOfTwo]

def twoThreadsValues (recv : Bool) : List (List Char) :=
  if recv then [1, 1, 1, 1, 0, 1, 1000].map decimal
  else [1, 1, 1, 1, 1000, 1204000, 30, 30].map decimal

/-- The goodput in megabytes. -/
theorem goodput_MB (amount : ℚ) {time : ℚ} (htime : time ≠ 0) :
    goodput amount time "MB" = some (amount / 1000 / time) := by
  rw [goodput, if_neg htime, if_neg (by decide), if_pos (by decide)]

theorem parseRecv_two :
    parseRecv "uvgrtp" 1 2 "MB" 602000000 (resultText ReceiveResult.line [receiveRun]) =
      some
        { usr := 1, sys := 1, cpu := 1, total := 1, frameLoss := 0, bytes := 1
          goodput := 1000 } := by
  rw [parseRecv, textLines_resultText ReceiveResult.isLine, recvLoop_lines (by decide) (by decide)]
  simp only [foldl_add, Option.bind_eq_bind, Option.bind_some]
  norm_num [receiveRun, secondReport, RunLog.threadMean, mean, goodput_MB, getFrameCount]

theorem parseSend_two :
    parseSend 1 2 "MB" 602000000 (resultText SendResult.line [sendRunOfTwo]) =
      some { usr := 1, sys := 1, cpu := 1, total := 1, sgp := 1000, tgp := 1204000 } := by
  have hentry : sendRunOfTwo.sendEntry =
      some { time := 602, usage := some secondReport.usage } := by
    norm_num [RunLog.sendEntry, RunLog.leftOut, sendRunOfTwo, sendTime]
  rw [parseSend, textLines_resultText SendResult.isLine, sendLoop_lines (by decide)]
  simp only [List.filterMap_cons, hentry, List.filterMap_nil, Option.bind_eq_bind, Option.bind_some]
  norm_num [goodput_MB, SendEntry.used, TimeReport.usage, secondReport]

/-- The name of a file of two threads is recognised. -/
theorem fields_two (recv : Bool) :
    (twoThreadsFile recv).config.HasName ∧
      csvFields (twoThreadsFile recv).name = (decimal 2, decimal 30, decimal 1) := by
  have hname : (twoThreadsFile recv).config.HasName := by
    cases recv <;> decide
  exact ⟨hname, csvFields_name hname⟩

theorem csvDataRate_two : csvDataRate megabytes (decimal 30) = 30 := by
  have hunit : ¬ ("MB" = "mbit" ∨ "MB" = "Mbit") := by decide
  norm_num [csvDataRate, convertBytesToUnit, megabytes, getFrameCount, hunit]

/-- The two files are read. -/
theorem reads_two (recv : Bool) :
    Reads megabytes ((twoThreadsFile recv).file twoThreadsText)
      { key := configKey (2, 30), front := recv, value := twoThreadsValues recv } := by
  obtain ⟨hname, hname_eq⟩ := fields_two recv
  have hfields : csvFields ((twoThreadsFile recv).file twoThreadsText).name =
    (decimal 2, decimal 30, decimal 1) := hname_eq
  have hrole : isRecvFile ((twoThreadsFile recv).file twoThreadsText) = recv :=
    isRecvFile_file hname
  have hfound := (@occursIn_role (twoThreadsFile recv).role (twoThreadsFile recv).config.benchmark
    (twoThreadsFile recv).config.fps (twoThreadsFile recv).role_mem hname.1 2 hname.2).2
  refine ⟨hfound, by rw [hfields]; decide, ?_⟩
  rw [csvEntry, hfields, hrole]
  cases recv with
  | true =>
    have hparse : parseRecv megabytes.lib (digitsValue (decimal 1)) (digitsValue (decimal 2))
        megabytes.unit megabytes.filesize ((twoThreadsFile true).file twoThreadsText).text =
          some _ := parseRecv_two
    have hvalue : [1, 1, 1, 1, 0, 1, 1000].map wholeNumber = twoThreadsValues true := by
      decide +kernel
    dsimp only
    rw [if_pos rfl, hparse, ← hvalue]
    rfl
  | false =>
    have hparse : parseSend (digitsValue (decimal 1)) (digitsValue (decimal 2))
        megabytes.unit megabytes.filesize ((twoThreadsFile false).file twoThreadsText).text =
          some _ := parseSend_two
    have hvalue : [1, 1, 1, 1, 1000, 1204000].map wholeNumber ++ [decimal 30, wholeNumber 30] =
        twoThreadsValues false := by
      decide +kernel
    dsimp only
    rw [if_neg Bool.false_ne_true, hparse, csvDataRate_two, ← hvalue]
    rfl

/-- Results of two threads and nothing else. -/
def twoThreads : ResultSet megabytes where
  configs := [(2, 30)]
  file _ recv := (twoThreadsFile recv).file twoThreadsText
  values _ := twoThreadsValues
  nodup := by decide
  nonempty := by decide
  threads_pos := by decide
  fps_lt := by decide
  isResult config hconfig recv := by
    obtain rfl := List.mem_singleton.mp hconfig
    have hfields : csvFields ((twoThreadsFile recv).file twoThreadsText).name =
      (decimal 2, decimal 30, decimal 1) := (fields_two recv).2
    exact ⟨by rw [hfields], by rw [hfields], _, reads_two recv⟩

/-- The directory with the two files. -/
def twoThreadsDir : List CsvFile :=
  [(twoThreadsFile true).file twoThreadsText, (twoThreadsFile false).file twoThreadsText]

/-- There is one thread count, and two blocks are written. -/
theorem blocks_two_threads :
    parseCsv megabytes twoThreadsDir =
      some (csvPreamble megabytes ++ csvBlock "MB" [] ++
        (csvHeading "2".toList ++
          csvBlock "MB" [twoThreadsValues true ++ twoThreadsValues false])) ∧
      ¬ twoThreads.Writes [] := by
  have hnone : ¬ ∃ config ∈ twoThreads.configs, config.1 = 1 := by decide
  have hfound : ∀ file ∈ twoThreadsDir, isResultFile file = true := by
    simp only [twoThreadsDir, List.forall_mem_cons]
    exact ⟨(reads_two true).1, (reads_two false).1, by simp⟩
  have hdir : twoThreads.Lists twoThreadsDir :=
    ⟨twoThreads.files, .refl _, List.filter_eq_self.mpr hfound⟩
  have hgroups : twoThreads.groups = [(2, [30])] := by
    simp [ResultSet.groups, group, secondsOf, twoThreads]
  have hbefore : twoThreads.before = csvBlock "MB" [] := if_neg hnone
  refine ⟨?_, fun hwrites => hnone (twoThreads.writes_nil_iff.mp hwrites)⟩
  rw [twoThreads.parseCsv_lists hdir, hgroups, hbefore]
  decide +kernel

end RtpBenchmarks.Results
