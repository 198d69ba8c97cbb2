import RtpBenchmarks.Ffmpeg.LatencySender

set_option autoImplicit false

/-!
# Packets of the FFmpeg latency sender (`ffmpeg/latency_sender.cc`)

A packet is the part of the file from `offset` on that is as long as the chunk.  A chunk whose
size is a key of `timestamps` is skipped before `offset` is moved, and so every packet behind
it holds bytes of the chunks before its own.
-/

namespace RtpBenchmarks.Ffmpeg.LatencySender

open RtpBenchmarks.Foundation

/-! ## The code -/

/-- `data`, counted from the start of the file, and `size` of an `AVPacket`. -/
structure Packet where
  data : Nat
  size : Int
  deriving DecidableEq, Repr

/-- The packet that is given to `av_interleaved_write_frame`.  The offset is a `uint64_t`, and
`pkt.size` is an `int`. -/
def packet (s : State) (chunkSize : Nat) : Packet where
  data := s.offset % 2 ^ 64
  size := (chunkSize : Int).bmod (2 ^ 32)

/-! ## Packets in place -/

/-- The number of the chunk that the sender is at. -/
def chunkNumber (chunkSizes : List Nat) (s : System) : Nat :=
  chunkSizes.length - s.prog.chunkSizes.length

/-- The step, if it writes a packet, writes the bytes of its chunk. -/
def RightPacket (chunkSizes : List Nat) (s : System) : Event → Prop
  | .write =>
    ∀ chunkSize ∈ s.prog.chunkSizes.head?,
      packet s.prog chunkSize =
        { data := (chunkSizes.take (chunkNumber chunkSizes s)).sum
          size := chunkSizes.getD (chunkNumber chunkSizes s) 0 }
  | .record _ _ | .receive _ _ | .close | .lose _ => True

/-- The step does not skip a chunk that is not empty. -/
def KeepsChunk (s : System) : Event → Prop
  | .record _ _ =>
    ∀ chunkSize ∈ s.prog.chunkSizes.head?, chunkSize ∈ s.prog.timestamps → chunkSize = 0
  | .write | .receive _ _ | .close | .lose _ => True

instance (s : System) : (e : Event) → Decidable (KeepsChunk s e)
  | .record _ _ => inferInstanceAs (Decidable (∀ chunkSize ∈ s.prog.chunkSizes.head?, _))
  | .write | .receive _ _ | .close | .lose _ => isTrue trivial

/-- If a packet is written, nothing has been skipped, and the numbers are in their ranges. -/
def InPlace (chunkSizes : List Nat) (done : List Event) (s : System) : Event → Prop
  | .write =>
    EveryStep step (fun _ s e => KeepsChunk s e) (initial chunkSizes) done ∧
      (chunkSizes.take (chunkNumber chunkSizes s)).sum < 2 ^ 64 ∧
      ∀ chunkSize ∈ s.prog.chunkSizes.head?, chunkSize < 2 ^ 31
  | .record _ _ | .receive _ _ | .close | .lose _ => True

/-- The chunks in front of the current one were written or skipped, `offset` is the sum of
those written, and the others are empty if and only if the steps so far keep their chunks. -/
structure Accounted (chunkSizes : List Nat) (done : List Event) (s : System) : Prop where
  suffix : ∃ gone, chunkSizes = gone ++ s.prog.chunkSizes ∧
    ∃ skipped, s.prog.offset + skipped = gone.sum ∧
      (skipped = 0 ↔ EveryStep step (fun _ s e => KeepsChunk s e) (initial chunkSizes) done)

theorem accounted_initial (chunkSizes : List Nat) :
    Accounted chunkSizes [] (initial chunkSizes) :=
  ⟨[], rfl, 0, rfl, iff_of_true rfl (by simp [EveryStep])⟩

section Run

variable {chunkSizes : List Nat} {done : List Event} {s s' : System} {e : Event}

/-- A step that keeps its chunk changes nothing in the condition. -/
theorem everyStep_keepsChunk_concat (hrun : Run step (initial chunkSizes) done s) :
    EveryStep step (fun _ s e => KeepsChunk s e) (initial chunkSizes) (done ++ [e]) ↔
      EveryStep step (fun _ s e => KeepsChunk s e) (initial chunkSizes) done ∧ KeepsChunk s e := by
  rw [everyStep_concat]
  refine and_congr_right fun _ => ⟨fun h => h s hrun, fun h mid hmid => ?_⟩
  obtain rfl := hrun.unique hmid
  exact h

/-- A step that leaves the chunks and the offset alone. -/
theorem Accounted.same (h : Accounted chunkSizes done s)
    (hrun : Run step (initial chunkSizes) done s) (hkeep : KeepsChunk s e)
    (hsizes : s'.prog.chunkSizes = s.prog.chunkSizes) (hoffset : s'.prog.offset = s.prog.offset) :
    Accounted chunkSizes (done ++ [e]) s' := by
  obtain ⟨gone, hgone, skipped, hsum, hiff⟩ := h.suffix
  refine ⟨gone, by rw [hsizes, hgone], skipped, by rw [hoffset, hsum], ?_⟩
  rw [everyStep_keepsChunk_concat hrun, hiff]
  exact ⟨fun hdone => ⟨hdone, hkeep⟩, And.left⟩

theorem receivePacket_sizes {prog prog' : State} {data : List UInt8} {now diff : Int}
    (h : receivePacket prog data now = some (prog', diff)) :
    prog'.chunkSizes = prog.chunkSizes ∧ prog'.offset = prog.offset := by
  unfold receivePacket at h
  split at h
  · cases h
  · dsimp only at h
    split at h
    · cases h
      exact ⟨rfl, rfl⟩
    · cases h
      exact ⟨rfl, rfl⟩

theorem Accounted.step (h : Accounted chunkSizes done s)
    (hrun : Run step (initial chunkSizes) done s) (hs : step s e = some s') :
    Accounted chunkSizes (done ++ [e]) s' := by
  cases took_of_step hs with
  | @skip now now' chunkSize rest ffKey _ sizes used =>
    -- the offset stays
    have hkeep : KeepsChunk s (.record now now') ↔ chunkSize = 0 := by
      simp [KeepsChunk, sizes, used]
    obtain ⟨gone, hgone, skipped, hsum, hiff⟩ := h.suffix
    refine ⟨gone ++ [chunkSize], ?_, skipped + chunkSize, ?_, ?_⟩
    · rw [hgone, sizes, List.append_assoc]
      rfl
    · rw [List.sum_append, List.sum_singleton, ← hsum, Nat.add_assoc]
    · rw [everyStep_keepsChunk_concat hrun, hkeep, ← hiff, Nat.add_eq_zero_iff]
  | @record now now' chunkSize rest ffKey _ sizes fresh =>
    have hkeep : KeepsChunk s (.record now now') := by
      simp [KeepsChunk, sizes, fresh]
    exact h.same hrun hkeep rfl rfl
  | @write chunkSize rest _ sizes =>
    obtain ⟨gone, hgone, skipped, hsum, hiff⟩ := h.suffix
    refine ⟨gone ++ [chunkSize], ?_, skipped, ?_, ?_⟩
    · rw [hgone, sizes, List.append_assoc]
      rfl
    · simp only [writeChunk, List.sum_append, List.sum_singleton, ← hsum]
      omega
    · rw [everyStep_keepsChunk_concat hrun, hiff]
      exact ⟨fun hdone => ⟨hdone, trivial⟩, And.left⟩
  | receive _ call =>
    have hprog := receivePacket_sizes call
    exact h.same hrun trivial hprog.1 hprog.2
  | underflow | close | lose => exact h.same hrun trivial rfl rfl

theorem accounted_of_run (hrun : Run step (initial chunkSizes) done s) :
    Accounted chunkSizes done s :=
  Run.invariant (accounted_initial chunkSizes) (fun _ _ _ _ hmid h hs => h.step hmid hs) hrun

theorem chunkNumber_eq {gone : List Nat} (h : chunkSizes = gone ++ s.prog.chunkSizes) :
    chunkNumber chunkSizes s = gone.length := by
  rw [chunkNumber, h, List.length_append, Nat.add_sub_cancel]

theorem take_chunkNumber {gone : List Nat} (h : chunkSizes = gone ++ s.prog.chunkSizes) :
    chunkSizes.take (chunkNumber chunkSizes s) = gone := by
  rw [chunkNumber_eq h, h, List.take_left' rfl]

/-- A packet is right if and only if it is in place. -/
theorem rightPacket_iff (h : Accounted chunkSizes done s) (hs : step s e = some s') :
    RightPacket chunkSizes s e ↔ InPlace chunkSizes done s e := by
  cases e with
  | write =>
    obtain ⟨gone, hgone, skipped, hsum, hiff⟩ := h.suffix
    obtain ⟨chunkSize, rest, hsizes⟩ : ∃ chunkSize rest, s.prog.chunkSizes = chunkSize :: rest := by
      cases took_of_step hs with
      | write _ sizes => exact ⟨_, _, sizes⟩
    have hnumber : chunkNumber chunkSizes s = gone.length := chunkNumber_eq hgone
    have htake : chunkSizes.take (chunkNumber chunkSizes s) = gone := take_chunkNumber hgone
    have hget : chunkSizes.getD (chunkNumber chunkSizes s) 0 = chunkSize := by
      rw [hnumber, hgone, hsizes]
      simp
    have hdata : s.prog.offset % 2 ^ 64 = gone.sum ↔ skipped = 0 ∧ gone.sum < 2 ^ 64 := by
      omega
    have hsize : (chunkSize : Int).bmod (2 ^ 32) = chunkSize ↔ chunkSize < 2 ^ 31 := by
      rw [Int.bmod_def]
      omega
    have hright : RightPacket chunkSizes s .write ↔
        s.prog.offset % 2 ^ 64 = gone.sum ∧ (chunkSize : Int).bmod (2 ^ 32) = chunkSize := by
      simp only [RightPacket, htake, hget, packet, hsizes, List.head?_cons, Option.mem_def,
        Option.some.injEq, forall_eq', Packet.mk.injEq]
    have hplace : InPlace chunkSizes done s .write ↔
        skipped = 0 ∧ gone.sum < 2 ^ 64 ∧ chunkSize < 2 ^ 31 := by
      simp only [InPlace, htake, hiff, hsizes, List.head?_cons, Option.mem_def, Option.some.injEq,
        forall_eq']
    rw [hright, hplace, hdata, hsize, and_assoc]
  | record _ _ | receive _ _ | close | lose _ => exact Iff.rfl

end Run

/-- In every run all packets are the bytes of their chunks if and only if each of them is
written before a chunk that is not empty has been skipped, with the numbers in their ranges. -/
theorem latencySender_packets {chunkSizes : List Nat} {evs : List Event} {s : System}
    (hrun : Run step (initial chunkSizes) evs s) :
    EveryStep step (fun _ s e => RightPacket chunkSizes s e) (initial chunkSizes) evs ↔
      EveryStep step (InPlace chunkSizes) (initial chunkSizes) evs :=
  everyStep_congr hrun fun _ _ _ _ hmid hs => rightPacket_iff (accounted_of_run hmid) hs

/-- Chunks of less than 2 GiB in all, of which none is skipped unless it is empty. -/
theorem everyStep_inPlace {chunkSizes : List Nat} {evs : List Event}
    (hsum : chunkSizes.sum < 2 ^ 31)
    (hkeep : EveryStep step (fun _ s e => KeepsChunk s e) (initial chunkSizes) evs) :
    EveryStep step (InPlace chunkSizes) (initial chunkSizes) evs := by
  intro done e rest mid hevs hmid
  cases e with
  | write =>
    obtain ⟨gone, hgone, -⟩ := (accounted_of_run hmid).suffix
    have htake : chunkSizes.take (chunkNumber chunkSizes mid) = gone := take_chunkNumber hgone
    have htotal : chunkSizes.sum = gone.sum + mid.prog.chunkSizes.sum := by
      rw [hgone, List.sum_append]
    refine ⟨(hevs ▸ hkeep).of_append, by rw [htake]; omega, fun chunkSize hfirst => ?_⟩
    obtain ⟨rest, hsizes⟩ := List.head?_eq_some_iff.mp hfirst
    rw [hsizes, List.sum_cons] at htotal
    omega
  | record _ _ | receive _ _ | close | lose _ => trivial

/-- Two chunks of different sizes. -/
theorem latencySender_packets_two :
    EveryStep step (fun _ s e => RightPacket [10, 20] s e) (initial [10, 20])
      [.record 0 0, .write, .record 33 33, .write] := by
  have hrun : Run step (initial [10, 20]) [.record 0 0, .write, .record 33 33, .write] _ :=
    run_get (by decide +kernel)
  exact (latencySender_packets hrun).mpr (everyStep_inPlace (by decide) (by decide +kernel))

/-- The second of three chunks has the size of the first, which has not come back: it is skipped,
and the packet of the third holds its bytes and half of those of the third. -/
theorem latencySender_packets_skipped :
    ¬ EveryStep step (fun _ s e => RightPacket [10, 10, 20] s e) (initial [10, 10, 20])
      ([.record 0 0, .write, .record 33 33, .record 66 66] ++ [.write]) := by
  intro h
  have hrun : Run step (initial [10, 10, 20])
      [.record 0 0, .write, .record 33 33, .record 66 66] _ :=
    run_get (by decide +kernel)
  have hright := h.last hrun 20 (by decide +kernel)
  exact absurd hright (by decide +kernel)

end RtpBenchmarks.Ffmpeg.LatencySender
