import RtpBenchmarks.Ffmpeg.LatencyPackets
import RtpBenchmarks.Util.ChunkFile

set_option autoImplicit false

/-!
# The slices that the senders cut (`sender.cc`, `latency_sender.cc`)

The senders of uvgRTP and FFmpeg go through the chunk sizes and hand out the part of the
video from the sum of the sizes so far on.  The sizes come from a file of their own, and
nothing compares them with the length of the video.  Every slice lies inside the video
exactly when the sizes add up to at most its length.
-/

namespace RtpBenchmarks.Util

open RtpBenchmarks.Foundation

/-! ## The code -/

/-- The arguments of `push_frame` that say which bytes to send: where they start, counted
from `mem`, and how many they are. -/
structure Slice where
  offset : Nat
  size : Nat
  deriving DecidableEq, Repr

/-- The slice lies within the first `len` bytes. -/
def Slice.Inside (len : Nat) (s : Slice) : Prop := s.offset + s.size ≤ len

instance (len : Nat) (s : Slice) : Decidable (s.Inside len) :=
  inferInstanceAs (Decidable (_ ≤ _))

/-- The loop over the chunk sizes: what is passed to `push_frame`, where `pushed` says at
which values of `current_frame` it returns `RTP_OK`.  The sum of the sizes is a `size_t`. -/
def pushLoop (pushed : Nat → Bool) (bytesSent currentFrame : Nat) : List Nat → List Slice
  | [] => []
  | chunkSize :: chunkSizes =>
    ⟨bytesSent, chunkSize⟩ ::
      if pushed currentFrame then
        pushLoop pushed ((bytesSent + chunkSize) % 2 ^ 64) (currentFrame + 1) chunkSizes
      else []

/-- What `sender_thread` of the uvgRTP sender pushes. -/
def senderThreadSlices (pushed : Nat → Bool) (chunkSizes : List Nat) : List Slice :=
  pushLoop pushed 0 0 chunkSizes

/-- What `sender` of the uvgRTP latency sender pushes of a video. -/
def latencySenderSlices (pushed : Nat → Bool) (chunkSizes : List Nat) : List Slice :=
  pushLoop pushed 0 0 chunkSizes

/-- What `thread_func` of the FFmpeg sender cuts; it goes on whatever
`av_interleaved_write_frame` returns. -/
def threadFuncSlices (chunkSizes : List Nat) : List Slice :=
  pushLoop (fun _ => true) 0 0 chunkSizes

/-- The packet that `thread_func` makes of a slice; `pkt.size` is an `int`. -/
def avPacket (s : Slice) : Ffmpeg.LatencySender.Packet where
  data := s.offset
  size := (s.size : Int).bmod (2 ^ 32)

/-- Every byte of the packet is one of the first `len` bytes. -/
def PacketInside (len : Nat) (p : Ffmpeg.LatencySender.Packet) : Prop :=
  ∀ i : Nat, p.data ≤ i → (i : Int) < p.data + p.size → i < len

/-! ## Sums of sizes -/

theorem sum_take_le (sizes : List Nat) (k : Nat) : (sizes.take k).sum ≤ sizes.sum := by
  have h := congrArg List.sum (List.take_append_drop k sizes)
  rw [List.sum_append] at h
  omega

/-- At every iteration the sum of the sizes so far neither wraps around nor exceeds
`len`. -/
def SumsInside (len : Nat) (sizes : List Nat) : Prop :=
  ∀ k ≤ sizes.length, (sizes.take k).sum < 2 ^ 64 ∧ (sizes.take k).sum ≤ len

theorem sumsInside_iff {len : Nat} (hlen : len < 2 ^ 64) (sizes : List Nat) :
    SumsInside len sizes ↔ sizes.sum ≤ len := by
  constructor
  · intro h
    have hall := (h sizes.length le_rfl).2
    rwa [List.take_length] at hall
  · intro h k _
    have hk := sum_take_le sizes k
    omega

/-! ## The loop -/

/-- The number of sizes that the loop takes: up to the first failure of `push_frame`. -/
def iterations (pushed : Nat → Bool) (currentFrame : Nat) : List Nat → Nat
  | [] => 0
  | _ :: chunkSizes =>
    if pushed currentFrame then iterations pushed (currentFrame + 1) chunkSizes + 1 else 1

theorem iterations_of_pushed (currentFrame : Nat) (sizes : List Nat) :
    iterations (fun _ => true) currentFrame sizes = sizes.length := by
  induction sizes generalizing currentFrame with
  | nil => rfl
  | cons size sizes ih => rw [iterations, if_pos rfl, ih, List.length_cons]

/-- In one run of the loop all slices lie inside exactly when the sizes it takes do, in
sum. -/
theorem pushLoop_inside_iff (pushed : Nat → Bool) {len : Nat} (hlen : len < 2 ^ 64)
    {bytesSent : Nat} (hsent : bytesSent ≤ len) (currentFrame : Nat) (sizes : List Nat) :
    (∀ s ∈ pushLoop pushed bytesSent currentFrame sizes, s.Inside len) ↔
      bytesSent + (sizes.take (iterations pushed currentFrame sizes)).sum ≤ len := by
  induction sizes generalizing bytesSent currentFrame with
  | nil => simp [pushLoop, iterations, hsent]
  | cons size sizes ih =>
    rw [pushLoop, iterations, List.forall_mem_cons]
    split_ifs with hpushed
    · rw [List.take_succ_cons, List.sum_cons, ← Nat.add_assoc]
      by_cases hinside : bytesSent + size ≤ len
      · -- inside the video the sum does not wrap around
        rw [Nat.mod_eq_of_lt (by omega), ih hinside]
        exact and_iff_right hinside
      · have hpast : ¬ Slice.Inside len ⟨bytesSent, size⟩ := hinside
        refine iff_of_false (fun h => hpast h.1) ?_
        omega
    · simp [Slice.Inside]

/-- The loop that is never stopped. -/
theorem pushLoop_all_inside_iff {len : Nat} (hlen : len < 2 ^ 64) (sizes : List Nat) :
    (∀ s ∈ pushLoop (fun _ => true) 0 0 sizes, s.Inside len) ↔ sizes.sum ≤ len := by
  rw [pushLoop_inside_iff _ hlen (Nat.zero_le len), iterations_of_pushed, List.take_length,
    Nat.zero_add]

/-- Whatever `push_frame` returns, all slices lie inside exactly when all sizes do, in
sum. -/
theorem forall_pushLoop_inside_iff {len : Nat} (hlen : len < 2 ^ 64) (sizes : List Nat) :
    (∀ pushed, ∀ s ∈ pushLoop pushed 0 0 sizes, s.Inside len) ↔ sizes.sum ≤ len := by
  constructor
  · intro h
    exact (pushLoop_all_inside_iff hlen sizes).mp (h _)
  · intro h pushed
    have htaken := sum_take_le sizes (iterations pushed 0 sizes)
    exact (pushLoop_inside_iff pushed hlen (Nat.zero_le len) 0 sizes).mpr (by omega)

/-! ## Packets -/

theorem bmod_le_self (n : Nat) : (n : Int).bmod (2 ^ 32) ≤ n := by
  rw [Int.bmod_def]
  omega

/-- A packet has no bytes that its slice has not. -/
theorem avPacket_inside {len : Nat} {s : Slice} (h : s.Inside len) :
    PacketInside len (avPacket s) := by
  intro i _ hi
  have hsize := bmod_le_self s.size
  unfold Slice.Inside at h
  simp only [avPacket] at hi
  omega

/-! ## The latency sender of FFmpeg -/

section LatencySender

open Ffmpeg.LatencySender

/-- The slice that the sender is about to write of the chunk in front of it. -/
def latencyPacketSlice (s : State) (chunkSize : Nat) : Slice :=
  ⟨s.offset % 2 ^ 64, chunkSize⟩

/-- Whichever chunks are skipped, what is written lies inside if all sizes do, in sum. -/
theorem latencyPacketSlice_inside {len : Nat} {chunkSizes : List Nat} (hsum : chunkSizes.sum ≤ len)
    {evs : List Event} {s : System} (hrun : Run step (initial chunkSizes) evs s) :
    ∀ chunkSize ∈ s.prog.chunkSizes.head?,
      (latencyPacketSlice s.prog chunkSize).Inside len ∧
        PacketInside len (packet s.prog chunkSize) := by
  intro chunkSize hfirst
  obtain ⟨gone, hgone, skipped, hwritten, -⟩ := (accounted_of_run hrun).suffix
  obtain ⟨rest, hsizes⟩ := List.head?_eq_some_iff.mp hfirst
  rw [hgone, hsizes, List.sum_append, List.sum_cons] at hsum
  have hmod := Nat.mod_le s.prog.offset (2 ^ 64)
  have hinside : (latencyPacketSlice s.prog chunkSize).Inside len := by
    unfold latencyPacketSlice Slice.Inside
    dsimp only
    omega
  exact ⟨hinside, avPacket_inside hinside⟩

end LatencySender

/-! ## All senders -/

/-- The bytes of all slices can be read exactly when the slices lie inside the video. -/
theorem senderThread_isOk_iff {mem : List UInt8} (hlen : mem.length < 2 ^ 64)
    (chunkSizes : List Nat) :
    (∃ r, senderThread mem chunkSizes = .ok r) ↔
      ∀ s ∈ senderThreadSlices (fun _ => true) chunkSizes, s.Inside mem.length := by
  have hcut := cutBlocks_isOk_iff (Nat.zero_le mem.length) chunkSizes
  rw [Nat.zero_add] at hcut
  exact hcut.trans (pushLoop_all_inside_iff hlen chunkSizes).symm

/-- For every video and every chunk file: the sums of the sizes so far stay inside the
video, and so do the slices of each of the senders in all their runs, exactly when all the
sizes add up to at most its length; the latency sender of FFmpeg, which may skip chunks,
stays inside if they do. -/
theorem chunkSlices_inside_iff {len : Nat} (hlen : len < 2 ^ 64) (file : List UInt8) :
    (SumsInside len (getChunkSizes (some file)) ↔ (getChunkSizes (some file)).sum ≤ len) ∧
    ((∀ pushed, ∀ s ∈ senderThreadSlices pushed (getChunkSizes (some file)), s.Inside len) ↔
      (getChunkSizes (some file)).sum ≤ len) ∧
    ((∀ pushed, ∀ s ∈ latencySenderSlices pushed (getChunkSizes (some file)), s.Inside len) ↔
      (getChunkSizes (some file)).sum ≤ len) ∧
    ((∀ s ∈ threadFuncSlices (getChunkSizes (some file)),
        s.Inside len ∧ PacketInside len (avPacket s)) ↔
      (getChunkSizes (some file)).sum ≤ len) ∧
    ((getChunkSizes (some file)).sum ≤ len → ∀ evs s,
      Run Ffmpeg.LatencySender.step
        (Ffmpeg.LatencySender.initial (getChunkSizes (some file))) evs s →
      ∀ chunkSize ∈ s.prog.chunkSizes.head?,
        (latencyPacketSlice s.prog chunkSize).Inside len ∧
          PacketInside len (Ffmpeg.LatencySender.packet s.prog chunkSize)) := by
  generalize getChunkSizes (some file) = chunkSizes
  have hpush := forall_pushLoop_inside_iff hlen chunkSizes
  refine ⟨sumsInside_iff hlen chunkSizes, hpush, hpush, ?_, fun hsum evs s hrun =>
    latencyPacketSlice_inside hsum hrun⟩
  rw [← pushLoop_all_inside_iff hlen chunkSizes]
  exact ⟨fun h s hs => (h s hs).1, fun h s hs => ⟨h s hs, avPacket_inside (h s hs)⟩⟩

/-- Two chunks of two bytes in a video of four. -/
theorem chunkSlices_inside_two :
    (4 : Nat) < 2 ^ 64 ∧ getChunkSizes (some [2, 0, 0, 0, 0, 0, 0, 0, 2, 0, 0, 0, 0, 0, 0, 0])
        = [2, 2] ∧
      ∀ pushed, ∀ s ∈ senderThreadSlices pushed [2, 2], s.Inside 4 := by
  have hinside := (chunkSlices_inside_iff (show (4 : Nat) < 2 ^ 64 by decide)
    [2, 0, 0, 0, 0, 0, 0, 0, 2, 0, 0, 0, 0, 0, 0, 0]).2.1
  exact ⟨by decide, by decide, hinside.mpr (by decide)⟩

/-- A chunk file of another video: its one size is 5 bytes, where the video has 4. -/
theorem chunkSlices_outside :
    let chunkSizes := getChunkSizes (some [5, 0, 0, 0, 0, 0, 0, 0])
    ¬ SumsInside 4 chunkSizes ∧
      (∃ pushed, ∃ s ∈ senderThreadSlices pushed chunkSizes, ¬ s.Inside 4) ∧
      (∃ pushed, ∃ s ∈ latencySenderSlices pushed chunkSizes, ¬ s.Inside 4) ∧
      ∃ s ∈ threadFuncSlices chunkSizes, ¬ s.Inside 4 ∧ ¬ PacketInside 4 (avPacket s) := by
  refine ⟨fun h => absurd (h 1 (by decide)).2 (by decide), ⟨fun _ => true, ⟨0, 5⟩, ?_⟩,
    ⟨fun _ => true, ⟨0, 5⟩, ?_⟩, ⟨0, 5⟩, ?_, ?_, fun h => ?_⟩
  · decide
  · decide
  · decide
  · decide
  · exact absurd (h 4 (by decide) (by decide)) (by decide)

end RtpBenchmarks.Util
