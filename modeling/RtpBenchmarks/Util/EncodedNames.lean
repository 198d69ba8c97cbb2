import RtpBenchmarks.Foundation.Paths

set_option autoImplicit false

/-!
# The names of the test files (`util/test_file_creation.cc`, `get_chunk_filename`)

`test_file_creation` derives the path of the encoded video from the path of the raw one, and
both it and the senders derive the path of the chunk file from that of the encoded video.  The
extension is looked for in the whole path, and the prefix of an output that would overwrite its
input is written before the whole path.
-/

namespace RtpBenchmarks.Util

open RtpBenchmarks.Foundation

/-! ## The code -/

/-- `get_chunk_filename`. -/
def getChunkFilename (encodedFilename : List Char) : List Char :=
  let (memFile, ending) :=
    match findLastOf '.' encodedFilename with
    | some lastindex => (encodedFilename.take lastindex, encodedFilename.drop (lastindex + 1))
    | none => ([], [])
  memFile ++ ".m".toList ++ ending

/-- The path of the encoded video in `main` of `test_file_creation`. -/
def outputFile (inputFile : List Char) : List Char :=
  let outputFile :=
    match findLastOf '.' inputFile with
    | some lastindex => inputFile.take lastindex
    | none => inputFile
  let outputFile := outputFile ++ ".hevc".toList
  if inputFile = outputFile then "out_".toList ++ outputFile else outputFile

/-! ## Where the files are -/

/-- The encoded video is another file in the directory of the raw one, and so is its chunk file,
with an `m` before the extension. -/
structure Placed (inputFile : List Char) : Prop where
  directory : directory (outputFile inputFile) = directory inputFile
  differs : outputFile inputFile ≠ inputFile
  chunkFilename : ∃ stem ext, outputFile inputFile = stem ++ '.' :: ext ∧ '.' ∉ ext ∧
    '/' ∉ ext ∧ getChunkFilename (outputFile inputFile) = stem ++ ".m".toList ++ ext
  chunkDirectory : Foundation.directory (getChunkFilename (outputFile inputFile)) =
    Foundation.directory inputFile

/-- A path without dots, a path whose last dot is in its last name, without a slash where it is
overwritten, or a path whose last dot stands for a directory, with only slashes between it and
the last name. -/
inductive Regular : List Char → Prop where
  | plain {path : List Char} (h : '.' ∉ path) : Regular path
  | extension {stem ext : List Char} (hdot : '.' ∉ ext) (hslash : '/' ∉ ext)
      (hevc : ext = "hevc".toList → '/' ∉ stem) : Regular (stem ++ '.' :: ext)
  | here {dir name : List Char} (k : Nat) (hdir : dir = [] ∨ dir.getLast? = some '/')
      (hdot : '.' ∉ name) (hslash : '/' ∉ name) :
      Regular (dir ++ '.' :: (List.replicate (k + 1) '/' ++ name))

/-- A path without an extension, or the current directory. -/
def Bare (path : List Char) : Prop :=
  '.' ∉ path ∨ path = ['.']

section Names

variable {path stem ext : List Char}

theorem getChunkFilename_bare (h : Bare path) : getChunkFilename path = ".m".toList := by
  rcases h with h | rfl
  · rw [getChunkFilename, findLastOf_eq_none h]
    rfl
  · rfl

theorem getChunkFilename_append (h : '.' ∉ ext) :
    getChunkFilename (stem ++ '.' :: ext) = stem ++ ".m".toList ++ ext := by
  simp [getChunkFilename, findLastOf_append h]

theorem outputFile_plain (h : '.' ∉ path) : outputFile path = path ++ ".hevc".toList := by
  simp [outputFile, findLastOf_eq_none h]

theorem outputFile_append (h : '.' ∉ ext) : outputFile (stem ++ '.' :: ext) =
    if ext = "hevc".toList then "out_".toList ++ (stem ++ ".hevc".toList)
      else stem ++ ".hevc".toList := by
  have heq : stem ++ '.' :: ext = stem ++ ".hevc".toList ↔ ext = "hevc".toList :=
    ⟨fun heq => (List.cons.inj (List.append_cancel_left heq)).2, fun hext => by rw [hext]; rfl⟩
  unfold outputFile
  rw [findLastOf_append h]
  dsimp only
  rw [List.take_left]
  simp only [heq]

/-- The encoded video has the extension of HEVC. -/
theorem exists_outputFile (path : List Char) :
    ∃ stem, outputFile path = stem ++ '.' :: "hevc".toList := by
  unfold outputFile
  dsimp only
  split_ifs
  · exact ⟨_, (List.append_assoc _ _ _).symm⟩
  · exact ⟨_, rfl⟩

theorem outputFile_ne (path : List Char) : outputFile path ≠ path := by
  unfold outputFile
  dsimp only
  split_ifs with heq
  · intro hout
    have hlen := congrArg List.length (hout.trans heq)
    rw [List.length_append] at hlen
    exact absurd hlen (by simp)
  · exact Ne.symm heq

/-- The prefix of an output that would overwrite its input makes another directory. -/
theorem directory_out (h : '/' ∈ path) : directory ("out_".toList ++ path) ≠ directory path := by
  obtain ⟨first, rest, rfl, hfirst⟩ := List.eq_append_cons_of_mem h
  have hout : '/' ∉ "out_".toList ++ first := by
    rw [List.mem_append, not_or]
    exact ⟨by decide, hfirst⟩
  intro heq
  have hnames := congrArg Directory.names heq
  rw [← List.append_assoc, names_append_slash, names_append_slash,
    List.splitOn_eq_singleton hout, List.splitOn_eq_singleton hfirst] at hnames
  have hsingle := List.append_cancel_right hnames
  rw [properNames_singleton, properNames_singleton, if_neg (by simp)] at hsingle
  split_ifs at hsingle
  have hlen := congrArg List.length (List.cons.inj hsingle).1
  rw [List.length_append] at hlen
  exact absurd hlen (by simp)

theorem not_mem_hevc : '/' ∉ ".hevc".toList := by decide

/-- Where the encoded video is in the directory of the raw one, the path is regular. -/
theorem regular_of_directory (h : directory (outputFile path) = directory path) :
    Regular path := by
  by_cases hdot : '.' ∈ path
  · obtain ⟨stem, ext, rfl, hext⟩ := exists_last_of_mem hdot
    rw [outputFile_append hext] at h
    by_cases hslash : '/' ∈ ext
    · -- the last dot is not in the last name
      have hne : ext ≠ "hevc".toList := by
        rintro rfl
        exact absurd hslash (by decide)
      rw [if_neg hne, directory_append stem not_mem_hevc] at h
      obtain ⟨hdir, k, name, rfl, hname⟩ := (directory_append_dot hext hslash).mp h.symm
      exact .here k hdir (fun hmem => hext (List.mem_append_right _ hmem)) hname
    · refine .extension hext hslash fun heq hstem => ?_
      rw [if_pos heq, heq] at h
      exact directory_out (List.mem_append_left _ hstem) h
  · exact .plain hdot

theorem Regular.directory (h : Regular path) : directory (outputFile path) = directory path := by
  cases h with
  | plain hdot => rw [outputFile_plain hdot, directory_append path not_mem_hevc]
  | @extension stem ext hdot hslash hevc =>
    rw [outputFile_append hdot]
    split_ifs with heq
    · -- both are in the current directory
      have hstem := hevc heq
      have hin : '/' ∉ stem ++ '.' :: ext := by simp [hstem, hslash]
      have hout : '/' ∉ "out_".toList ++ (stem ++ ".hevc".toList) := by simp [hstem]
      rw [directory_of_not_mem hin, directory_of_not_mem hout]
    · rw [directory_append stem not_mem_hevc,
        directory_append stem (List.not_mem_cons_of_ne_of_not_mem (by decide) hslash)]
  | @here dir name k hdir hdot hslash =>
    have hext : '.' ∉ List.replicate (k + 1) '/' ++ name := by simp [hdot]
    have hmem : '/' ∈ List.replicate (k + 1) '/' ++ name := by simp
    have hne : List.replicate (k + 1) '/' ++ name ≠ "hevc".toList := by
      intro heq
      rw [heq] at hmem
      exact absurd hmem (by decide)
    rw [outputFile_append hext, if_neg hne, directory_append dir not_mem_hevc]
    exact ((directory_append_dot hext hmem).mpr ⟨hdir, k, name, rfl, hslash⟩).symm

/-- Only the directory of the encoded video can be wrong. -/
theorem placed_iff : Placed path ↔ Regular path := by
  refine ⟨fun h => regular_of_directory h.directory, fun hregular => ?_⟩
  have h := hregular.directory
  obtain ⟨stem, hstem⟩ := exists_outputFile path
  have hchunk := @getChunkFilename_append stem "hevc".toList (by decide)
  refine ⟨h, outputFile_ne path, ⟨stem, "hevc".toList, hstem, by decide, by decide, ?_⟩, ?_⟩
  · rw [hstem, hchunk]
  · rw [← h, hstem, hchunk, List.append_assoc, directory_append stem (by decide),
      directory_append stem (by decide)]

/-! ## Different chunk files -/

/-- A path with an extension can be told from its chunk file name. -/
theorem getChunkFilename_inj {path' : List Char} (hpath : '.' ∈ path) (hpath' : '.' ∈ path')
    (h : getChunkFilename path = getChunkFilename path') : path = path' := by
  obtain ⟨stem, ext, rfl, hext⟩ := exists_last_of_mem hpath
  obtain ⟨stem', ext', rfl, hext'⟩ := exists_last_of_mem hpath'
  have hcut : ∀ stem ext : List Char, stem ++ ".m".toList ++ ext = stem ++ '.' :: 'm' :: ext :=
    fun _ _ => List.append_assoc _ _ _
  rw [getChunkFilename_append hext, getChunkFilename_append hext', hcut, hcut] at h
  -- the last dot is in the same place
  have hindex := congrArg (findLastOf '.') h
  rw [findLastOf_append (List.not_mem_cons_of_ne_of_not_mem (by decide) hext),
    findLastOf_append (List.not_mem_cons_of_ne_of_not_mem (by decide) hext')] at hindex
  obtain ⟨hstem, hending⟩ := List.append_inj h (Option.some.inj hindex)
  rw [hstem, (List.cons.inj (List.cons.inj hending).2).2]

theorem bare_of_getChunkFilename (h : getChunkFilename path = ".m".toList) : Bare path := by
  by_cases hdot : '.' ∈ path
  · obtain ⟨stem, ext, rfl, hext⟩ := exists_last_of_mem hdot
    rw [getChunkFilename_append hext] at h
    have hlen := congrArg List.length h
    rw [List.length_append, List.length_append] at hlen
    have hstem : stem = [] := List.length_eq_zero_iff.mp (by omega)
    have hnil : ext = [] := List.length_eq_zero_iff.mp (by omega)
    rw [hstem, hnil]
    exact .inr rfl
  · exact .inl hdot

/-- Two paths have the same chunk file if and only if they have no extension. -/
theorem getChunkFilename_ne_iff {path' : List Char} (hne : path ≠ path') :
    getChunkFilename path ≠ getChunkFilename path' ↔ ¬ (Bare path ∧ Bare path') := by
  refine not_congr ⟨fun heq => ?_, fun hbare => ?_⟩
  · by_cases hdot : '.' ∈ path
    · by_cases hdot' : '.' ∈ path'
      · exact absurd (getChunkFilename_inj hdot hdot' heq) hne
      · rw [getChunkFilename_bare (.inl hdot')] at heq
        exact ⟨bare_of_getChunkFilename heq, .inl hdot'⟩
    · rw [getChunkFilename_bare (.inl hdot)] at heq
      exact ⟨.inl hdot, bare_of_getChunkFilename heq.symm⟩
  · rw [getChunkFilename_bare hbare.1, getChunkFilename_bare hbare.2]

end Names

/-- The encoded video and its chunk file lie beside the raw video if and only if its path is
regular, and the chunk file of one path is that of another if and only if both have no
extension. -/
theorem encodedNames_iff (path : List Char) :
    (Placed path ↔ Regular path) ∧
      ∀ path', path ≠ path' →
        (getChunkFilename path ≠ getChunkFilename path' ↔ ¬ (Bare path ∧ Bare path')) :=
  ⟨placed_iff, fun _ hne => getChunkFilename_ne_iff hne⟩

/-- A directory with a dot, a video that is encoded already, and two paths without an
extension. -/
theorem encodedNames_misplaced :
    (outputFile "v1.2/video".toList = "v1.hevc".toList ∧ ¬ Placed "v1.2/video".toList) ∧
      (outputFile "dir/video.hevc".toList = "out_dir/video.hevc".toList ∧
        ¬ Placed "dir/video.hevc".toList) ∧
      getChunkFilename "video".toList = getChunkFilename "other".toList := by
  refine ⟨⟨by decide, fun h => ?_⟩, ⟨by decide, fun h => ?_⟩, by decide⟩
  · exact absurd h.directory (by decide)
  · exact absurd h.directory (by decide)

end RtpBenchmarks.Util
