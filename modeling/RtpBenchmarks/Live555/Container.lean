import Mathlib.Algebra.Order.BigOperators.Group.List
import RtpBenchmarks.Foundation.Records
import RtpBenchmarks.Live555.FramedSource
import RtpBenchmarks.Util.SplitIntoNals

set_option autoImplicit false

/-!
# Live555: the file of the framed source (`startFramedSource`, `util/live555_util.cc`)

The framed source is given a file in memory: the size of a chunk in eight bytes, the chunk, the
size of the next one, and so on.  `startFramedSource` walks through it from size to size and
queues where the chunks lie; it does not look whether they lie in the file.  It stops behind
3000 chunks.

`len_` is an `int`, and `sendFrame` takes a length of zero for a source that is not started.
-/

namespace RtpBenchmarks.Live555.FramedSource

open RtpBenchmarks.Foundation
open RtpBenchmarks.Util (Chunk splitIntoNals)

/-! ## The code -/

/-- A pair of `chunks_`: the size, and the place in the memory. -/
structure ChunkInfo where
  size : Nat
  place : Nat
  deriving DecidableEq, Repr

/-- The variables of the loop of `startFramedSource`. -/
structure Walk where
  i : Nat := 0
  chunks : List ChunkInfo := []
  totalSize : Nat := 0
  deriving DecidableEq, Repr

/-- The body of the loop, behind the `memcpy`. -/
def Walk.push (s : Walk) (chunkSize : Nat) : Walk :=
  let i := (s.i + 8) % 2 ^ 64
  { i := (i + chunkSize) % 2 ^ 64
    chunks := s.chunks ++ [{ size := chunkSize, place := i }]
    totalSize := (s.totalSize + chunkSize) % 2 ^ 64 }

/-- The loop, of at most so many rounds; it fails where a size is not in the memory. -/
def walk (mem : List UInt8) : Nat → Walk → Except MemFault Walk
  | 0, s => .ok s
  | k + 1, s =>
    if s.i < mem.length then do
      let word ← loadBytes mem s.i 8
      walk mem k (s.push (ofLittleEndian word))
    else .ok s

/-- `startFramedSource` on a new source, with `total_size_`; `len_` is an `int`. -/
def startFramedSource (mem : List UInt8) : Except MemFault (State ChunkInfo × Nat) := do
  let s ← walk mem 3000 {}
  .ok ({ len := (mem.length : Int).bmod (2 ^ 32), chunks := s.chunks }, s.totalSize)

/-- The bytes of a NAL unit in its chunk. -/
def nalBytes (c : Chunk) (nal : Nat × Int) : List UInt8 :=
  (c.bytes.drop nal.2.toNat).take nal.1

/-- The NAL units of a chunk, as `sendFrame` reads them. -/
def nalsOf (startLen : UInt8) (c : Chunk) : List (List UInt8) :=
  (splitIntoNals c startLen).map (nalBytes c)

/-! ## Files of chunks -/

/-- The chunk that a size and a place denote. -/
def Denotes (mem : List UInt8) (info : ChunkInfo) (chunk : List UInt8) : Prop :=
  info.size = chunk.length ∧ loadBytes mem info.place info.size = .ok chunk

/-- A file of at most so many chunks; what stands behind that many is not looked at. -/
def Container (mem : List UInt8) (most : Nat) (chunks : List (List UInt8)) : Prop :=
  ∃ rest, mem = chunks.flatMap record ++ rest ∧ chunks.length ≤ most ∧
    (rest = [] ∨ chunks.length = most)

theorem container_zero {mem : List UInt8} {chunks : List (List UInt8)} :
    Container mem 0 chunks ↔ chunks = [] := by
  constructor
  · rintro ⟨rest, -, hcount, -⟩
    exact List.length_eq_zero_iff.mp (Nat.le_zero.mp hcount)
  · rintro rfl
    exact ⟨mem, rfl, Nat.le_refl 0, .inr rfl⟩

theorem container_empty {most : Nat} {chunks : List (List UInt8)} :
    Container [] most chunks ↔ chunks = [] := by
  constructor
  · rintro ⟨rest, hmem, -, -⟩
    cases chunks with
    | nil => rfl
    | cons chunk chunks =>
      rw [List.flatMap_cons, List.append_assoc] at hmem
      exact absurd (List.append_eq_nil_iff.mp hmem.symm).1 (record_ne_nil chunk)
  · rintro rfl
    exact ⟨[], rfl, Nat.zero_le _, .inl rfl⟩

theorem container_succ_nil {mem : List UInt8} {most : Nat} :
    Container mem (most + 1) [] ↔ mem = [] := by
  constructor
  · rintro ⟨rest, hmem, -, rfl | hcount⟩
    · exact hmem
    · cases hcount
  · rintro rfl
    exact container_empty.mpr rfl

theorem container_cons {mem chunk : List UInt8} {most : Nat} {chunks : List (List UInt8)} :
    Container mem (most + 1) (chunk :: chunks) ↔
      ∃ tail, mem = record chunk ++ tail ∧ Container tail most chunks := by
  constructor
  · rintro ⟨rest, hmem, hcount, hrest⟩
    refine ⟨chunks.flatMap record ++ rest, ?_, rest, rfl, Nat.le_of_succ_le_succ hcount,
      hrest.imp_right Nat.succ.inj⟩
    rw [hmem, List.flatMap_cons, List.append_assoc]
  · rintro ⟨tail, rfl, rest, rfl, hcount, hrest⟩
    refine ⟨rest, ?_, Nat.succ_le_succ hcount, hrest.imp_right (congrArg Nat.succ)⟩
    rw [List.flatMap_cons, List.append_assoc]

/-! ## The walk through a file -/

section Walking

variable {mem : List UInt8} {chunks : List (List UInt8)} {k : Nat} {s s' : Walk}

theorem walk_of_le (h : mem.length ≤ s.i) : walk mem k s = .ok s := by
  cases k with
  | zero => rfl
  | succ k => rw [walk, if_neg (Nat.not_lt.mpr h)]

/-- The loop keeps what is queued, and adds the sizes of what it queues up. -/
theorem walk_chunks (h : walk mem k s = .ok s') :
    ∃ infos, s'.chunks = s.chunks ++ infos ∧
      (s.totalSize < 2 ^ 64 →
        s'.totalSize = (s.totalSize + (infos.map (·.size)).sum) % 2 ^ 64) := by
  induction k generalizing s with
  | zero =>
    obtain rfl := Except.ok.inj h
    exact ⟨[], (List.append_nil _).symm, fun hsmall => (Nat.mod_eq_of_lt hsmall).symm⟩
  | succ k ih =>
    rw [walk] at h
    split_ifs at h with hinside
    · obtain ⟨word, -, hrest⟩ := bind_eq_ok_iff.mp h
      obtain ⟨infos, hinfos, htotal⟩ := ih hrest
      refine ⟨_, hinfos.trans (List.append_assoc _ _ _), fun _ => ?_⟩
      rw [htotal (Nat.mod_lt _ (by decide))]
      simp only [Walk.push, List.map_append, List.map_cons, List.map_nil, List.sum_append,
        List.sum_singleton]
      omega
    · obtain rfl := Except.ok.inj h
      exact ⟨[], (List.append_nil _).symm, fun hsmall => (Nat.mod_eq_of_lt hsmall).symm⟩

/-- The loop ends, and has queued these chunks. -/
def Walks (mem : List UInt8) (k : Nat) (s : Walk) (chunks : List (List UInt8)) : Prop :=
  ∃ s' infos, walk mem k s = .ok s' ∧ s'.chunks = s.chunks ++ infos ∧
    List.Forall₂ (Denotes mem) infos chunks

/-- Where the loop stops, it queues nothing. -/
theorem walks_of_stopped (hwalk : walk mem k s = .ok s) : Walks mem k s chunks ↔ chunks = [] := by
  constructor
  · rintro ⟨s', infos, hwalk', hinfos, hdenotes⟩
    obtain rfl := Except.ok.inj (hwalk.symm.trans hwalk')
    obtain rfl := List.self_eq_append_right.mp hinfos
    exact List.forall₂_nil_left_iff.mp hdenotes
  · rintro rfl
    exact ⟨s, [], hwalk, (List.append_nil _).symm, .nil⟩

/-- A round of the loop queues the chunk that it finds. -/
theorem walks_succ (hmem : mem.length < 2 ^ 64) (hi : s.i < mem.length) :
    Walks mem (k + 1) s chunks ↔ ∃ word chunk tail, chunks = chunk :: tail ∧
      loadBytes mem s.i 8 = .ok word ∧ ofLittleEndian word = chunk.length ∧
      loadBytes mem (s.i + 8) chunk.length = .ok chunk ∧
      Walks mem k (s.push chunk.length) tail := by
  have hplace {word : List UInt8} (hload : loadBytes mem s.i 8 = .ok word) :
      (s.i + 8) % 2 ^ 64 = s.i + 8 := by
    have hword := (loadBytes_eq_ok_iff.mp hload).1
    exact Nat.mod_eq_of_lt (by omega)
  constructor
  · rintro ⟨s', infos, hwalk, hinfos, hdenotes⟩
    rw [walk, if_pos hi] at hwalk
    obtain ⟨word, hload, hrest⟩ := bind_eq_ok_iff.mp hwalk
    obtain ⟨infos', hinfos', -⟩ := walk_chunks hrest
    obtain rfl : infos = ⟨ofLittleEndian word, s.i + 8⟩ :: infos' := by
      rw [hinfos, Walk.push, hplace hload, List.append_assoc] at hinfos'
      exact List.append_cancel_left hinfos'
    obtain ⟨chunk, tail, ⟨hsize, hchunk⟩, htail, rfl⟩ := List.forall₂_cons_left_iff.mp hdenotes
    dsimp only at hsize hchunk
    rw [hsize] at hrest hinfos' hchunk
    exact ⟨word, chunk, tail, rfl, hload, hsize, hchunk, s', infos', hrest, hinfos', htail⟩
  · rintro ⟨word, chunk, tail, rfl, hload, hsize, hchunk, s', infos, hrest, hinfos, htail⟩
    refine ⟨s', ⟨chunk.length, s.i + 8⟩ :: infos, ?_, ?_, .cons ⟨rfl, hchunk⟩ htail⟩
    · rw [walk, if_pos hi, hload, ok_bind, hsize]
      exact hrest
    · rw [hinfos, Walk.push, hplace hload, List.append_assoc]
      rfl

/-- The loop queues these chunks if and only if they are what the rest of the file is made of. -/
theorem walks_iff (hmem : mem.length < 2 ^ 64) (hi : s.i ≤ mem.length) :
    Walks mem k s chunks ↔ Container (mem.drop s.i) k chunks := by
  induction k generalizing s chunks with
  | zero => rw [walks_of_stopped rfl, container_zero]
  | succ k ih =>
    rcases Nat.eq_or_lt_of_le hi with hend | hlt
    · rw [walks_of_stopped (walk_of_le (Nat.le_of_eq hend.symm)),
        List.drop_eq_nil_of_le (Nat.le_of_eq hend.symm), container_empty]
    · rw [walks_succ hmem hlt]
      have hnext {chunk : List UInt8} (hend : s.i + 8 + chunk.length ≤ mem.length) :
          (s.push chunk.length).i = s.i + 8 + chunk.length := by
        unfold Walk.push
        dsimp only
        rw [Nat.mod_eq_of_lt (by omega : s.i + 8 < 2 ^ 64), Nat.mod_eq_of_lt (by omega)]
      constructor
      · rintro ⟨word, chunk, tail, rfl, hload, hsize, hchunk, hrest⟩
        have hend := (loadBytes_eq_ok_iff.mp hchunk).1
        rw [ih (by rw [hnext hend]; exact hend), hnext hend] at hrest
        exact container_cons.mpr ⟨_,
          (drop_eq_record_append_iff (by omega)).mpr ⟨word, hload, hsize, hchunk, rfl⟩, hrest⟩
      · intro h
        cases chunks with
        | nil =>
          have hnone := List.drop_eq_nil_iff.mp (container_succ_nil.mp h)
          exact absurd hlt (Nat.not_lt.mpr hnone)
        | cons chunk tail =>
          obtain ⟨left, hdrop, hleft⟩ := container_cons.mp h
          have hlength := congrArg List.length hdrop
          rw [List.length_drop, List.length_append, length_record] at hlength
          obtain ⟨word, hload, hsize, hchunk, rfl⟩ :=
            (drop_eq_record_append_iff (by omega)).mp hdrop
          have hend := (loadBytes_eq_ok_iff.mp hchunk).1
          refine ⟨word, chunk, tail, rfl, hload, hsize, hchunk, ?_⟩
          rw [ih (by rw [hnext hend]; exact hend), hnext hend]
          exact hleft

theorem walks_start (hmem : mem.length < 2 ^ 64) :
    Walks mem k {} chunks ↔ Container mem k chunks :=
  walks_iff (s := {}) hmem (Nat.zero_le _)

/-- Sizes and places that denote chunks have the sizes of the chunks. -/
theorem sizes_of_denotes {infos : List ChunkInfo} (h : List.Forall₂ (Denotes mem) infos chunks) :
    infos.map (·.size) = chunks.map List.length := by
  induction h with
  | nil => rfl
  | cons hdenotes _ ih => rw [List.map_cons, List.map_cons, hdenotes.1, ih]

theorem Container.sum_le (h : Container mem k chunks) :
    (chunks.map List.length).sum ≤ mem.length := by
  obtain ⟨rest, rfl, -, -⟩ := h
  rw [List.length_append, List.length_flatMap]
  have hle : (chunks.map List.length).sum ≤ (chunks.map fun c => (record c).length).sum := by
    apply List.sum_le_sum
    intro chunk _
    rw [length_record]
    exact Nat.le_add_left _ _
  exact Nat.le_add_right_of_le hle

/-- The state after `startFramedSource`, and what it queues, for a file of chunks. -/
theorem startFramedSource_of_container (hmem : mem.length < 2 ^ 64)
    (h : Container mem 3000 chunks) :
    ∃ infos, startFramedSource mem =
        .ok ({ len := (mem.length : Int).bmod (2 ^ 32), chunks := infos },
          (chunks.map List.length).sum) ∧
      List.Forall₂ (Denotes mem) infos chunks := by
  have hsum := h.sum_le
  obtain ⟨s, infos, hwalk, hinfos, hdenotes⟩ := (walks_start hmem).mpr h
  obtain ⟨infos', hinfos', htotal⟩ := walk_chunks hwalk
  obtain rfl : infos' = infos := List.append_cancel_left (hinfos'.symm.trans hinfos)
  refine ⟨infos', ?_, hdenotes⟩
  rw [startFramedSource, hwalk, ok_bind, hinfos, htotal (by decide), sizes_of_denotes hdenotes,
    Nat.zero_add, Nat.mod_eq_of_lt (by omega), List.nil_append]

/-- `startFramedSource` reads no byte behind the memory and queues chunks that lie in it if and
only if the memory holds a file of these chunks; the total size is then the sum of theirs. -/
theorem startFramedSource_iff (hmem : mem.length < 2 ^ 64) (chunks : List (List UInt8)) :
    (∃ source total, startFramedSource mem = .ok (source, total) ∧
      List.Forall₂ (Denotes mem) source.chunks chunks ∧
      total = (chunks.map List.length).sum) ↔
    Container mem 3000 chunks := by
  constructor
  · rintro ⟨source, total, hstart, hdenotes, -⟩
    obtain ⟨s, hwalk, hsource⟩ := bind_eq_ok_iff.mp hstart
    obtain ⟨rfl, -⟩ := Prod.mk.inj (Except.ok.inj hsource)
    exact (walks_start hmem).mp ⟨s, s.chunks, hwalk, (List.nil_append _).symm, hdenotes⟩
  · intro h
    obtain ⟨infos, hstart, hdenotes⟩ := startFramedSource_of_container hmem h
    exact ⟨_, _, hstart, hdenotes, rfl⟩

end Walking

/-- A file of a chunk of two bytes and an empty one. -/
theorem startFramedSource_iff_two :
    ∃ source total, startFramedSource (record [7, 8] ++ record []) = .ok (source, total) ∧
      List.Forall₂ (Denotes (record [7, 8] ++ record [])) source.chunks [[7, 8], []] ∧
      total = 2 :=
  (startFramedSource_iff (by decide) [[7, 8], []]).mpr ⟨[], rfl, by decide, .inl rfl⟩

/-! ## From the file to the buffers -/

section Delivery

variable {mem : List UInt8} {cs : List Chunk}

theorem rangesBehind_inside {f : Nat → Int} {len start : Nat} {xs : List Nat}
    (hf : ∀ x, -1 ≤ f x) (hxs : ∀ x ∈ xs, x < len) (hstart : start ≤ len) :
    ∀ r ∈ Util.rangesBehind f len start xs, 0 ≤ r.1 ∧ r.2 ≤ len := by
  induction xs generalizing start with
  | nil =>
    intro r hr
    obtain rfl := List.mem_singleton.mp hr
    exact ⟨Int.natCast_nonneg start, Int.le_refl _⟩
  | cons x xs ih =>
    obtain ⟨hx, hrest⟩ := List.forall_mem_cons.mp hxs
    intro r hr
    rcases List.mem_cons.mp hr with rfl | hr
    · have hzeros := hf x
      exact ⟨Int.natCast_nonneg start, by omega⟩
    · exact ih hrest hx r hr

/-- A NAL unit lies in its chunk, also where the start codes are not all seen. -/
theorem splitIntoNals_inside (c : Chunk) (startLen : UInt8) :
    ∀ nal ∈ splitIntoNals c startLen, 0 ≤ nal.2 ∧ nal.2 + nal.1 ≤ c.bytes.length := by
  intro nal hnal
  have hrange : Util.nalRange nal ∈ (splitIntoNals c startLen).map Util.nalRange :=
    List.mem_map_of_mem hnal
  have hcodes : ∀ x ∈ Util.seenCodes c.bytes 0, x < c.bytes.length := fun x hx =>
    (List.getElem?_eq_some_iff.mp (Util.mem_codes.mp hx).1).1
  rw [Util.splitIntoNals_ranges] at hrange
  split at hrange
  · obtain hwhole := List.mem_singleton.mp hrange
    obtain ⟨hplace, hend⟩ := Prod.mk.inj hwhole
    exact ⟨Int.le_of_eq hplace.symm, Int.le_of_eq hend⟩
  · next x xs hseen =>
    rw [hseen] at hcodes
    obtain ⟨hx, hxs⟩ := List.forall_mem_cons.mp hcodes
    refine rangesBehind_inside (fun y => ?_) hxs hx _ hrange
    unfold Util.zerosTaken
    omega

theorem nalsOf_ne_nil (startLen : UInt8) (c : Chunk) : nalsOf startLen c ≠ [] := by
  unfold nalsOf splitIntoNals Util.finishSplit
  simp

theorem length_le_of_mem_nalsOf {startLen : UInt8} {c : Chunk} {nal : List UInt8}
    (h : nal ∈ nalsOf startLen c) : nal.length ≤ c.bytes.length := by
  obtain ⟨place, -, rfl⟩ := List.mem_map.mp h
  rw [nalBytes, List.length_take, List.length_drop]
  omega

theorem bmod_length_eq_zero_iff {n : Nat} :
    (n : Int).bmod (2 ^ 32) = 0 ↔ n % 2 ^ 32 = 0 := by
  rw [Int.bmod_def]
  split_ifs <;> omega

/-- A source with a length of zero delivers empty buffers. -/
theorem calls_of_len_eq_zero {κ : Type} {split : κ → List (List UInt8)} {n : Nat}
    {s s' : State κ} (hlen : s.len = 0) (hoff : s.off = 0) (h : Calls split n s s') :
    s'.sent = s.sent ++ List.replicate n [] ∧ s'.chunks = s.chunks := by
  induction n generalizing s with
  | zero =>
    obtain rfl := run_nil.mp h
    exact ⟨(List.append_nil _).symm, rfl⟩
  | succ n ih =>
    obtain ⟨mid, hcall, hrest⟩ := calls_succ.mp h
    rw [sendFrame, if_pos ⟨hlen, hoff⟩] at hcall
    obtain rfl := Option.some.inj hcall
    obtain ⟨hsent, hchunks⟩ := ih (s := { s with sent := s.sent ++ [[]] }) hlen hoff hrest
    refine ⟨?_, hchunks⟩
    rw [hsent, List.append_assoc, List.replicate_succ]
    rfl

/-- For a file of chunks, `startFramedSource` queues these chunks, `splitIntoNals` cuts them
inside, and the calls of `sendFrame` deliver their NAL units until all are, unless the length
of the file is a multiple of 2^32: then they deliver nothing, however many there are. -/
theorem framedSource_delivers (hmem : mem.length < 2 ^ 64) (startLen : UInt8)
    (h : Container mem 3000 (cs.map Chunk.bytes)) :
    ∃ source total, startFramedSource mem = .ok (source, total) ∧
      List.Forall₂ (Denotes mem) source.chunks (cs.map Chunk.bytes) ∧
      (∀ c ∈ cs, ∀ nal ∈ splitIntoNals c startLen, 0 ≤ nal.2 ∧ nal.2 + nal.1 ≤ c.bytes.length) ∧
      (mem.length % 2 ^ 32 ≠ 0 → ∃ n s',
        Calls (nalsOf startLen) n { len := source.len, chunks := cs } s' ∧ Exhausted s' ∧
        s'.sent = delivered (nalsOf startLen) none cs ∧ ∀ b ∈ s'.sent, b.length ≤ maxWriteSize) ∧
      (mem.length % 2 ^ 32 = 0 → ∀ n s',
        Calls (nalsOf startLen) n { len := source.len, chunks := cs } s' →
        s'.sent = List.replicate n [] ∧ s'.chunks = cs) := by
  obtain ⟨infos, hstart, hdenotes⟩ := startFramedSource_of_container hmem h
  have hzero := bmod_length_eq_zero_iff (n := mem.length)
  generalize (mem.length : Int).bmod (2 ^ 32) = len at hstart hzero
  refine ⟨_, _, hstart, hdenotes, fun c _ => splitIntoNals_inside c startLen, fun hlen => ?_,
    fun hlen n s' hcalls => ?_⟩
  · have hsmall : ∀ c ∈ cs, ∀ nal ∈ nalsOf startLen c, nal.length < 2 ^ 31 := fun c _ nal hnal =>
      Nat.lt_of_le_of_lt (length_le_of_mem_nalsOf hnal) c.small
    have hinit : Between ({ len, chunks := cs } : State Chunk) none := ⟨rfl, rfl, rfl⟩
    obtain ⟨n, s', hcalls, hexhausted, hsent⟩ :=
      calls_chunks (mt hzero.mp hlen) hinit rfl (fun c _ => nalsOf_ne_nil startLen c) hsmall
    rw [List.nil_append] at hsent
    refine ⟨n, s', hcalls, hexhausted, hsent, ?_⟩
    rw [hsent]
    exact delivered_le_maxWriteSize
  · exact calls_of_len_eq_zero (hzero.mpr hlen) rfl hcalls

end Delivery

/-- A chunk with two NAL units. -/
def twoNals : Chunk where
  bytes := [0, 0, 1, 5, 0, 0, 0, 1, 7, 8]
  small := by decide

theorem framedSource_delivers_twoNals :
    ∃ source total, startFramedSource (record twoNals.bytes) = .ok (source, total) ∧
      ∃ n s', Calls (nalsOf 0) n { len := source.len, chunks := [twoNals] } s' ∧ Exhausted s' := by
  have hfile : Container (record twoNals.bytes) 3000 ([twoNals].map Chunk.bytes) :=
    ⟨[], rfl, by decide, .inl rfl⟩
  obtain ⟨source, total, hstart, -, -, hdelivers, -⟩ := framedSource_delivers (by decide) 0 hfile
  obtain ⟨n, s', hcalls, hexhausted, -⟩ := hdelivers (by decide)
  exact ⟨source, total, hstart, n, s', hcalls, hexhausted⟩

end RtpBenchmarks.Live555.FramedSource
