import RtpBenchmarks.Foundation.Blocks

set_option autoImplicit false

/-!
# The chunk file (`util/test_file_creation.cc`, `get_chunk_sizes`)

`kvazaar_encode` writes the encoded video to one file and, for each access unit, its size
to a companion file.  The senders read the sizes with `get_chunk_sizes` and cut the video
at the offsets they add up to.

The encoder answers one call after the other with a list of data chunks; nothing when its
output is delayed, and the rest of its output once there is no more input.
-/

namespace RtpBenchmarks.Util

open RtpBenchmarks.Foundation

/-! ## The code -/

/-- What one call of `encoder_encode` gives: its return value, and the data of the chunks
linked from `chunks_out`, a null pointer when there is none.  All of them are in memory, so
that their sizes add up to a 64-bit number. -/
structure EncoderResult where
  encoded : Bool
  chunksOut : List (List UInt8)
  total_lt : (chunksOut.map List.length).sum < 2 ^ 64

/-- The contents of `outputFile` and `memoryFile`. -/
structure Files where
  outputFile : List UInt8 := []
  memoryFile : List UInt8 := []
  deriving DecidableEq, Repr

/-- `EXIT_SUCCESS` and `EXIT_FAILURE`. -/
def exitSuccess : Int := 0

def exitFailure : Int := 1

/-- The loop that adds up `written`, in 64 bits. -/
def totalSize (chunksOut : List (List UInt8)) : Nat :=
  chunksOut.foldl (fun written chunk => (written + chunk.length) % 2 ^ 64) 0

/-- `encode_frame`, with or without an input picture: the files, and `rvalue` where it
returns `false`. -/
def encodeFrame (input : Bool) (r : EncoderResult) (files : Files) : Files × Option Int :=
  if r.encoded = false then (files, some exitFailure)
  else if r.chunksOut = [] ∧ input = false then (files, some exitSuccess)
  else if r.chunksOut ≠ [] then
    ({ memoryFile := files.memoryFile ++ littleEndian 8 (totalSize r.chunksOut)
       outputFile := r.chunksOut.foldl (· ++ ·) files.outputFile }, none)
  else (files, none)

/-- The two loops of `kvazaar_encode`: `frames` calls with a picture, then calls without
until one returns `false`.  The encoder answers with `results`; `none` is a run that waits
for its next answer. -/
def kvazaarEncode (frames : Nat) (results : List EncoderResult) (files : Files) :
    Files × Option Int :=
  match results with
  | [] => (files, none)
  | r :: results =>
    match encodeFrame (0 < frames) r files with
    | (files, none) => kvazaarEncode (frames - 1) results files
    | (files, some rvalue) => (files, some rvalue)

/-- `get_chunk_sizes`; a file that cannot be opened has no sizes. -/
def getChunkSizes : Option (List UInt8) → List Nat
  | none => []
  | some inputFile => readWords inputFile

/-- The frames that `sender_thread` of the uvgRTP sender pushes, and `bytes_sent`. -/
def senderThread (mem : List UInt8) (chunkSizes : List Nat) :
    Except MemFault (List (List UInt8) × Nat) :=
  cutBlocks mem 0 chunkSizes

/-- The packets that `thread_func` of the FFmpeg sender writes, and `bytes_sent`; a packet
is the bytes from `pkt.data` on, as many as the number assigned to `pkt.size`. -/
def threadFunc (mem : List UInt8) (chunkSizes : List Nat) :
    Except MemFault (List (List UInt8) × Nat) :=
  cutBlocks mem 0 chunkSizes

/-! ## Access units -/

/-- The answers that a run takes before it ends. -/
def taken : Nat → List EncoderResult → List EncoderResult
  | _, [] => []
  | frames, r :: results =>
    if r.encoded = false ∨ r.chunksOut = [] ∧ frames = 0 then []
    else r :: taken (frames - 1) results

/-- The access units of the answers with chunks, in order. -/
def accessUnits (results : List EncoderResult) : List (List UInt8) :=
  (results.filter (·.chunksOut ≠ [])).map (·.chunksOut.flatten)

theorem totalSize_eq (r : EncoderResult) :
    totalSize r.chunksOut = r.chunksOut.flatten.length := by
  have hfold : ∀ (chunks : List (List UInt8)) (written : Nat),
      written + (chunks.map List.length).sum < 2 ^ 64 →
      chunks.foldl (fun written chunk => (written + chunk.length) % 2 ^ 64) written =
        written + (chunks.map List.length).sum := by
    intro chunks
    induction chunks with
    | nil => exact fun written _ => rfl
    | cons chunk chunks ih =>
      intro written h
      rw [List.map_cons, List.sum_cons] at h ⊢
      rw [List.foldl_cons, Nat.mod_eq_of_lt (by omega), ih _ (by omega), Nat.add_assoc]
  have hsize := hfold r.chunksOut 0 (by have := r.total_lt; omega)
  rw [totalSize, hsize, List.length_flatten, Nat.zero_add]

/-- The two files hold the access units and their sizes. -/
structure InStep (units : List (List UInt8)) (files : Files) : Prop where
  output : files.outputFile = units.flatten
  memory : files.memoryFile = (units.map List.length).flatMap (littleEndian 8)
  small : ∀ unit ∈ units, unit.length < 2 ^ 64

theorem inStep_nil : InStep [] {} where
  output := rfl
  memory := rfl
  small := by simp

/-- A call with an answer that ends the run leaves the files as they are. -/
theorem encodeFrame_stop {input : Bool} {r : EncoderResult}
    (h : r.encoded = false ∨ r.chunksOut = [] ∧ input = false) (files : Files) :
    ∃ rvalue, encodeFrame input r files = (files, some rvalue) := by
  unfold encodeFrame
  by_cases hencoded : r.encoded = false
  · exact ⟨_, if_pos hencoded⟩
  · rw [if_neg hencoded, if_pos (h.resolve_left hencoded)]
    exact ⟨_, rfl⟩

/-- Any other call writes the access unit of its answer, if there is one, to both files. -/
theorem InStep.encodeFrame {units : List (List UInt8)} {files : Files} (h : InStep units files)
    {input : Bool} {r : EncoderResult}
    (hgo : ¬ (r.encoded = false ∨ r.chunksOut = [] ∧ input = false)) :
    ∃ files', encodeFrame input r files = (files', none) ∧
      InStep (units ++ accessUnits [r]) files' := by
  obtain ⟨hencoded, hchunks⟩ := not_or.mp hgo
  unfold Util.encodeFrame
  rw [if_neg hencoded, if_neg hchunks]
  by_cases hnull : r.chunksOut = []
  · have hnone : accessUnits [r] = [] := by simp [accessUnits, hnull]
    rw [if_neg (not_not.mpr hnull), hnone, List.append_nil]
    exact ⟨files, rfl, h⟩
  · have hunit : accessUnits [r] = [r.chunksOut.flatten] := by simp [accessUnits, hnull]
    rw [if_pos hnull, hunit]
    refine ⟨_, rfl, ?_, ?_, ?_⟩
    · have hfold : r.chunksOut.foldl (· ++ ·) files.outputFile =
          files.outputFile ++ (r.chunksOut.map id).flatten := List.foldl_append_eq_append
      dsimp only
      rw [hfold, List.map_id, h.output, List.flatten_append, List.flatten_singleton]
    · dsimp only
      rw [totalSize_eq, h.memory, List.map_append, List.flatMap_append]
      simp
    · refine List.forall_mem_append.mpr ⟨h.small, List.forall_mem_singleton.mpr ?_⟩
      rw [List.length_flatten]
      exact r.total_lt

/-- The files stay in step over a run. -/
theorem InStep.kvazaarEncode {units : List (List UInt8)} {files : Files}
    (h : InStep units files) (frames : Nat) (results : List EncoderResult) :
    InStep (units ++ accessUnits (taken frames results))
      (kvazaarEncode frames results files).1 := by
  induction results generalizing frames units files with
  | nil => simpa [taken, accessUnits, Util.kvazaarEncode] using h
  | cons r results ih =>
    have hinput : frames = 0 ↔ decide (0 < frames) = false := by simp
    rw [Util.kvazaarEncode, taken]
    by_cases hstop : r.encoded = false ∨ r.chunksOut = [] ∧ frames = 0
    · have hstop' := hstop
      rw [hinput] at hstop'
      obtain ⟨rvalue, hcall⟩ := encodeFrame_stop hstop' files
      rw [if_pos hstop, hcall]
      simpa [accessUnits] using h
    · have hgo := hstop
      rw [hinput] at hgo
      obtain ⟨files', hcall, h'⟩ := h.encodeFrame hgo
      have hsplit : accessUnits (r :: taken (frames - 1) results) =
          accessUnits [r] ++ accessUnits (taken (frames - 1) results) := by
        rw [accessUnits, ← List.singleton_append, List.filter_append, List.map_append]
        rfl
      rw [if_neg hstop, hcall, hsplit, ← List.append_assoc]
      exact ih h' (frames - 1)

/-- A run to the end takes every answer but the last. -/
theorem taken_complete {fed flushed : List EncoderResult} {last : EncoderResult}
    (hencoded : ∀ r ∈ fed ++ flushed, r.encoded = true)
    (hflushed : ∀ r ∈ flushed, r.chunksOut ≠ []) (hlast : last.chunksOut = []) :
    taken fed.length (fed ++ flushed ++ [last]) = fed ++ flushed := by
  induction fed with
  | nil =>
    simp only [List.nil_append, List.length_nil] at hencoded ⊢
    induction flushed with
    | nil => simp [taken, hlast]
    | cons r flushed ih =>
      obtain ⟨hr, hrest⟩ := List.forall_mem_cons.mp hencoded
      obtain ⟨hne, hflushed⟩ := List.forall_mem_cons.mp hflushed
      rw [List.cons_append, taken, if_neg (by simp [hr, hne]), ih hflushed hrest]
  | cons r fed ih =>
    obtain ⟨hr, hrest⟩ := List.forall_mem_cons.mp hencoded
    rw [List.cons_append, List.cons_append, taken, if_neg (by simp [hr]), List.length_cons,
      Nat.add_sub_cancel, ih hrest]

/-- After any run, `get_chunk_sizes` reads the sizes of the access units in order; they add
up to the length of the video, and cut there the video gives the access units, as both
senders cut it.  A run to the end has taken all answers. -/
theorem kvazaarEncode_inStep (frames : Nat) (results : List EncoderResult) :
    let files := (kvazaarEncode frames results {}).1
    let units := accessUnits (taken frames results)
    let sizes := getChunkSizes (some files.memoryFile)
    sizes = units.map List.length ∧ sizes.sum = files.outputFile.length ∧
      sizes.splitLengths files.outputFile = units ∧
      senderThread files.outputFile sizes = .ok (units, files.outputFile.length) ∧
      threadFunc files.outputFile sizes = .ok (units, files.outputFile.length) ∧
      ∀ fed flushed last, results = fed ++ flushed ++ [last] → fed.length = frames →
        (∀ r ∈ fed ++ flushed, r.encoded = true) → (∀ r ∈ flushed, r.chunksOut ≠ []) →
        last.chunksOut = [] → units = accessUnits results := by
  intro files units sizes
  have h : InStep units files := inStep_nil.kvazaarEncode frames results
  have hsizes : sizes = units.map List.length := by
    change readWords files.memoryFile = _
    rw [h.memory, readWords_flatMap (List.forall_mem_map.mpr h.small)]
  have hsum : sizes.sum = files.outputFile.length := by
    rw [hsizes, h.output, List.length_flatten]
  have hcut : sizes.splitLengths files.outputFile = units := by
    rw [hsizes, h.output, splitLengths_flatten]
  have hsent : cutBlocks files.outputFile 0 sizes = .ok (units, files.outputFile.length) := by
    rw [cutBlocks_eq (by omega), List.drop_zero, hcut, hsum, Nat.zero_add]
  refine ⟨hsizes, hsum, hcut, hsent, hsent, ?_⟩
  rintro fed flushed last rfl rfl hencoded hflushed hlast
  have htaken : units = accessUnits (fed ++ flushed) :=
    congrArg accessUnits (taken_complete hencoded hflushed hlast)
  rw [htaken, accessUnits, accessUnits, List.filter_append _ [last]]
  simp [hlast]

end RtpBenchmarks.Util
