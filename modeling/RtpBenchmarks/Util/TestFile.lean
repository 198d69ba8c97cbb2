import RtpBenchmarks.Util.ChunkFile

set_option autoImplicit false

/-!
# Encoding the test file (`util/test_file_creation.cc`)

`kvazaar_encode` reads pictures of a raw video until one cannot be read whole, gives each of them
to the encoder, and then asks that for the rest of its output.  The encoder is a machine: what it
answers depends on all that it was given before.
-/

namespace RtpBenchmarks.Util

open RtpBenchmarks.Foundation

/-! ## The code -/

/-- A picture with its planes. -/
structure Picture where
  y : List UInt8
  u : List UInt8
  v : List UInt8
  deriving DecidableEq, Repr

/-- `inputFile.read`, where as many bytes are left. -/
def readInput (n : Nat) (input : List UInt8) : Option (List UInt8 × List UInt8) :=
  if n ≤ input.length then some (input.take n, input.drop n) else none

/-- The planes of the next picture, with what is left. -/
def readPicture (width height : Nat) (input : List UInt8) : Option (Picture × List UInt8) := do
  let (y, input) ← readInput (width * height) input
  let (u, input) ← readInput (width * height / 4) input
  let (v, input) ← readInput (width * height / 4) input
  some ({ y, u, v }, input)

/-- `encoder_encode`, with or without a picture, and the state of the encoder behind it. -/
abbrev Encoder (σ : Type) : Type := σ → Option Picture → EncoderResult × σ

section Loops

variable {σ : Type} (encoder : Encoder σ)

/-- The loop that writes the rest of the frames, for so many calls at most. -/
def flushEncoder : Nat → σ → Files → Files × Option Int
  | 0, _, files => (files, none)
  | calls + 1, s, files =>
    let (r, s) := encoder s none
    match encodeFrame false r files with
    | (files, none) => flushEncoder calls s files
    | (files, some rvalue) => (files, some rvalue)

/-- The loop over the pictures, of which there are at most so many; then the rest is written. -/
def encodePictures (width height calls : Nat) :
    Nat → σ → List UInt8 → Files → Files × Option Int
  | 0, s, _, files => flushEncoder encoder calls s files
  | most + 1, s, input, files =>
    match readPicture width height input with
    | none => flushEncoder encoder calls s files
    | some (picture, input) =>
      let (r, s) := encoder s (some picture)
      match encodeFrame true r files with
      | (files, none) => encodePictures width height calls most s input files
      | (files, some rvalue) => (files, some rvalue)

/-- `kvazaar_encode` with files that can be opened.  A picture has at least a byte. -/
def kvazaarEncodeFile (width height calls : Nat) (s : σ) (input : List UInt8) :
    Files × Option Int :=
  encodePictures encoder width height calls input.length s input {}

end Loops

/-! ## The pictures -/

/-- The bytes of a picture. -/
def pictureSize (width height : Nat) : Nat :=
  width * height + width * height / 4 + width * height / 4

def Picture.bytes (p : Picture) : List UInt8 :=
  p.y ++ p.u ++ p.v

/-- The planes have their sizes. -/
structure Picture.OfSize (p : Picture) (width height : Nat) : Prop where
  y : p.y.length = width * height
  u : p.u.length = width * height / 4
  v : p.v.length = width * height / 4

/-- The pictures that are read. -/
def pictures (width height : Nat) : Nat → List UInt8 → List Picture
  | 0, _ => []
  | most + 1, input =>
    match readPicture width height input with
    | none => []
    | some (picture, input) => picture :: pictures width height most input

/-- What the encoder answers to some calls. -/
def answers {σ : Type} (encoder : Encoder σ) : σ → List (Option Picture) → List EncoderResult
  | _, [] => []
  | s, input :: inputs =>
    (encoder s input).1 :: answers encoder (encoder s input).2 inputs

section Pictures

variable {width height : Nat} {input rest : List UInt8} {picture : Picture}

theorem readInput_eq_some {n : Nat} {bytes : List UInt8}
    (h : readInput n input = some (bytes, rest)) : input = bytes ++ rest ∧ bytes.length = n := by
  unfold readInput at h
  split_ifs at h with hle
  cases h
  exact ⟨(List.take_append_drop n input).symm, List.length_take_of_le hle⟩

theorem readPicture_eq_some (h : readPicture width height input = some (picture, rest)) :
    input = picture.bytes ++ rest ∧ picture.OfSize width height := by
  obtain ⟨⟨y, input₁⟩, hy, h⟩ := Option.bind_eq_some_iff.mp h
  obtain ⟨⟨u, input₂⟩, hu, h⟩ := Option.bind_eq_some_iff.mp h
  obtain ⟨⟨v, input₃⟩, hv, h⟩ := Option.bind_eq_some_iff.mp h
  cases h
  obtain ⟨rfl, hylen⟩ := readInput_eq_some hy
  obtain ⟨rfl, hulen⟩ := readInput_eq_some hu
  obtain ⟨rfl, hvlen⟩ := readInput_eq_some hv
  refine ⟨?_, hylen, hulen, hvlen⟩
  simp only [Picture.bytes, List.append_assoc]

theorem readPicture_eq_none (h : readPicture width height input = none) :
    input.length < pictureSize width height := by
  by_contra hle
  unfold pictureSize at hle
  have hread (n : Nat) (bytes : List UInt8) (hn : n ≤ bytes.length) :
      readInput n bytes = some (bytes.take n, bytes.drop n) := if_pos hn
  simp only [readPicture] at h
  rw [hread _ _ (by omega)] at h
  simp only [Option.bind_eq_bind, Option.bind_some] at h
  rw [hread _ _ (by rw [List.length_drop]; omega)] at h
  simp only [Option.bind_some] at h
  rw [hread _ _ (by rw [List.length_drop, List.length_drop]; omega)] at h
  cases h

/-- The raw video is cut into pictures; less than one is left. -/
theorem pictures_spec (hsize : 0 < width * height) {most : Nat} (hmost : input.length ≤ most) :
    ∃ rest, input = (pictures width height most input).flatMap Picture.bytes ++ rest ∧
      rest.length < pictureSize width height ∧
      ∀ p ∈ pictures width height most input, p.OfSize width height := by
  induction most generalizing input with
  | zero =>
    obtain rfl := List.length_eq_zero_iff.mp (Nat.le_zero.mp hmost)
    refine ⟨[], rfl, ?_, by simp [pictures]⟩
    rw [pictureSize, List.length_nil]
    omega
  | succ most ih =>
    rw [pictures]
    cases hread : readPicture width height input with
    | none => exact ⟨input, rfl, readPicture_eq_none hread, by simp⟩
    | some r =>
      obtain ⟨picture, left⟩ := r
      obtain ⟨rfl, hpicture⟩ := readPicture_eq_some hread
      have hbyte : 0 < picture.bytes.length := by
        have hy := hpicture.y
        simp only [Picture.bytes, List.length_append]
        omega
      rw [List.length_append] at hmost
      have hleft : left.length ≤ most := by omega
      obtain ⟨rest, hrest, hshort, hall⟩ := ih hleft
      refine ⟨rest, ?_, hshort, List.forall_mem_cons.mpr ⟨hpicture, hall⟩⟩
      rw [List.flatMap_cons, List.append_assoc, ← hrest]

end Pictures

/-! ## The loops -/

section Loops

variable {σ : Type} (encoder : Encoder σ)

/-- The loops do with the answers of the encoder what has been said of any answers. -/
theorem flushEncoder_eq (calls : Nat) (s : σ) (files : Files) :
    flushEncoder encoder calls s files =
      kvazaarEncode 0 (answers encoder s (List.replicate calls none)) files := by
  induction calls generalizing s files with
  | zero => rfl
  | succ calls ih =>
    rw [List.replicate_succ, answers, kvazaarEncode, flushEncoder]
    dsimp only
    rw [show decide (0 < 0) = false from rfl]
    rcases encodeFrame false (encoder s none).1 files with ⟨files', rvalue⟩
    cases rvalue with
    | none => exact ih _ _
    | some rvalue => rfl

theorem encodePictures_eq (width height calls most : Nat) (s : σ) (input : List UInt8)
    (files : Files) :
    encodePictures encoder width height calls most s input files =
      kvazaarEncode (pictures width height most input).length
        (answers encoder s
          ((pictures width height most input).map some ++ List.replicate calls none)) files := by
  induction most generalizing s input files with
  | zero => exact flushEncoder_eq encoder calls s files
  | succ most ih =>
    rw [encodePictures, pictures]
    cases readPicture width height input with
    | none => exact flushEncoder_eq encoder calls s files
    | some r =>
      obtain ⟨picture, left⟩ := r
      dsimp only
      rw [List.map_cons, List.cons_append, answers, kvazaarEncode, List.length_cons]
      rw [show decide (0 < (pictures width height most left).length + 1) = true by simp]
      rcases encodeFrame true (encoder s (some picture)).1 files with ⟨files', rvalue⟩
      cases rvalue with
      | none => exact ih _ _ _
      | some rvalue => rfl

/-- What the program returns is decided by the answer behind those that were taken. -/
theorem kvazaarEncode_exit (frames : Nat) (results : List EncoderResult) (files : Files) :
    (kvazaarEncode frames results files).2 =
      results[(taken frames results).length]?.map fun r =>
        if r.encoded then exitSuccess else exitFailure := by
  induction results generalizing frames files with
  | nil => rfl
  | cons r results ih =>
    have hinput : frames = 0 ↔ decide (0 < frames) = false := by simp
    rw [kvazaarEncode, taken]
    by_cases hstop : r.encoded = false ∨ r.chunksOut = [] ∧ frames = 0
    · have hcall : encodeFrame (0 < frames) r files =
          (files, some (if r.encoded then exitSuccess else exitFailure)) := by
        unfold encodeFrame
        cases hencoded : r.encoded with
        | false => rfl
        | true =>
          rw [hencoded, hinput] at hstop
          rw [if_neg (by simp), if_pos (hstop.resolve_left (by simp))]
          rfl
      rw [if_pos hstop, hcall]
      rfl
    · have hgo := hstop
      rw [hinput] at hgo
      obtain ⟨hencoded, hchunks⟩ := not_or.mp hgo
      rw [if_neg hstop, List.length_cons, List.getElem?_cons_succ]
      have hcall : ∃ files', encodeFrame (0 < frames) r files = (files', none) := by
        unfold encodeFrame
        rw [if_neg hencoded, if_neg hchunks]
        split_ifs <;> exact ⟨_, rfl⟩
      obtain ⟨files', hcall⟩ := hcall
      rw [hcall]
      exact ih _ _

/-- The raw video is cut into whole pictures, the encoder is given each of them once and in order,
and then asked for the rest; less than a picture at the end of the video is left out.  The chunk
file has the sizes of the access units that it has answered, up to the call that ends the program,
with which a sender cuts them out of the video again, and that call decides what is returned. -/
theorem kvazaarEncodeFile_cut {width height : Nat} (hsize : 0 < width * height) (calls : Nat)
    (s : σ) (input : List UInt8) :
    ∃ (given : List Picture) (rest : List UInt8) (results : List EncoderResult)
        (units : List (List UInt8)) (files : Files),
      input = given.flatMap Picture.bytes ++ rest ∧ rest.length < pictureSize width height ∧
      (∀ p ∈ given, p.OfSize width height) ∧
      results = answers encoder s (given.map some ++ List.replicate calls none) ∧
      units = accessUnits (taken given.length results) ∧
      kvazaarEncodeFile encoder width height calls s input =
        (files, results[(taken given.length results).length]?.map fun r =>
          if r.encoded then exitSuccess else exitFailure) ∧
      getChunkSizes (some files.memoryFile) = units.map List.length ∧
      senderThread files.outputFile (units.map List.length) =
        .ok (units, files.outputFile.length) := by
  obtain ⟨rest, hinput, hrest, hall⟩ := pictures_spec hsize (Nat.le_refl input.length)
  have hrun := encodePictures_eq encoder width height calls input.length s input {}
  generalize pictures width height input.length input = given at hinput hall hrun
  generalize hresults : answers encoder s (given.map some ++ List.replicate calls none) = results
    at hrun
  have h : InStep (accessUnits (taken given.length results))
      (kvazaarEncode given.length results {}).1 := inStep_nil.kvazaarEncode given.length results
  generalize hunits : accessUnits (taken given.length results) = units at h
  refine ⟨given, rest, results, units, (kvazaarEncode given.length results {}).1, hinput, hrest,
    hall, hresults.symm, hunits.symm, ?_, ?_, ?_⟩
  · exact hrun.trans (Prod.ext rfl (kvazaarEncode_exit _ _ _))
  · rw [h.memory]
    exact readWords_flatMap (List.forall_mem_map.mpr h.small)
  · have hsum : (units.map List.length).sum =
        (kvazaarEncode given.length results {}).1.outputFile.length := by
      rw [h.output, List.length_flatten]
    rw [senderThread, cutBlocks_eq (by omega), List.drop_zero, hsum, h.output,
      splitLengths_flatten, Nat.zero_add]

end Loops

/-- An encoder that answers with the access unit of the picture before, in two chunks. -/
def delayed : Encoder Bool
  | false, picture => ({ encoded := true, chunksOut := [], total_lt := by decide }, picture.isSome)
  | true, picture =>
    ({ encoded := true, chunksOut := [[0, 0, 1], [7]], total_lt := by decide }, picture.isSome)

/-- Two pictures of two pixels and a byte. -/
theorem kvazaarEncodeFile_cut_two :
    ∃ (given : List Picture) (rest : List UInt8) (results : List EncoderResult)
        (units : List (List UInt8)) (files : Files),
      [1, 2, 3, 4, 5] = given.flatMap Picture.bytes ++ rest ∧ rest.length < pictureSize 2 1 ∧
      (∀ p ∈ given, p.OfSize 2 1) ∧
      results = answers delayed false (given.map some ++ List.replicate 4 none) ∧
      units = accessUnits (taken given.length results) ∧
      kvazaarEncodeFile delayed 2 1 4 false [1, 2, 3, 4, 5] =
        (files, results[(taken given.length results).length]?.map fun r =>
          if r.encoded then exitSuccess else exitFailure) ∧
      getChunkSizes (some files.memoryFile) = units.map List.length ∧
      senderThread files.outputFile (units.map List.length) =
        .ok (units, files.outputFile.length) :=
  kvazaarEncodeFile_cut delayed (by decide) 4 false [1, 2, 3, 4, 5]

example : (kvazaarEncodeFile delayed 2 1 4 false [1, 2, 3, 4, 5]).2 = some exitSuccess := by decide

end RtpBenchmarks.Util
