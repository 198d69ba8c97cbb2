import RtpBenchmarks.Foundation.Runs
import RtpBenchmarks.Foundation.Scalars
import RtpBenchmarks.Uvgrtp.Statistics

set_option autoImplicit false

/-!
# FFmpeg receiver (`ffmpeg/receiver.cc`)

Each receiver thread opens its input, looks for the video stream in it and reads
packets until the input ends; then it prints one line.  The byte count `size` and the
start time are locals of the thread, the packet count `pkts` and the time `last` of the
last packet are globals of the program.

As for the uvgRTP receiver, the program is a step function, and a run any schedule of
steps of its threads.  In every run `size` counts the packets of the thread's own video
stream and `pkts` the packets of all threads and streams (`read_totals`).
-/

namespace RtpBenchmarks.Ffmpeg

open RtpBenchmarks.Foundation

/-! ## The code -/

/-- What `thread_func` uses of an `AVPacket`. -/
structure Packet where
  streamIndex : Nat
  size : Nat
  deriving DecidableEq, Repr

/-- The line printed at the end, and the thread that prints it. -/
structure ResultLine where
  thread : Nat
  discard : Bool
  size : Nat
  pkts : Nat
  diffMs : Nat
  deriving DecidableEq, Repr

/-- Where a thread is in `thread_func`: before the input is open, in the reading loop
with its local variables, or at its end. -/
inductive Phase where
  | starting
  | reading (videoStreamIndex size : Nat) (start : Int)
  | ended
  deriving DecidableEq, Repr

/-- The globals, the threads and the lines printed. -/
structure ReceiverState where
  pkts : Nat
  last : Int
  nready : Int
  threads : Nat → Phase
  lines : List ResultLine

/-- The state in which `main` starts the threads. -/
def initial : ReceiverState where
  pkts := 0
  last := 0
  nready := 0
  threads _ := .starting
  lines := []

/-- The loop over `format_ctx->streams`: the index of the last video stream, 0 if there
is none. -/
def videoStreamIndex (isVideo : List Bool) : Nat :=
  isVideo.zipIdx.foldl (fun index stream => if stream.1 then stream.2 else index) 0

/-- Move a thread. -/
def ReceiverState.setPhase (s : ReceiverState) (threadNum : Nat) (p : Phase) :
    ReceiverState :=
  { s with threads := Function.update s.threads threadNum p }

/-- The body of the reading loop, at the time `now`. -/
def readPacket (s : ReceiverState) (threadNum : Nat) (index size : Nat) (start : Int)
    (packet : Packet) (now : Int) : ReceiverState :=
  let size := if packet.streamIndex = index then size + packet.size else size
  { s with pkts := s.pkts + 1, last := now }.setPhase threadNum (.reading index size start)

/-- What follows the loop. -/
def finish (s : ReceiverState) (threadNum : Nat) (size : Nat) (start : Int) :
    ReceiverState :=
  let line : ResultLine :=
    { thread := threadNum
      discard := s.pkts ≠ 598
      size
      pkts := s.pkts
      diffMs := milliseconds (s.last - start) }
  { s with lines := s.lines ++ [line], nready := atomicInc s.nready
    }.setPhase threadNum .ended

/-- One atomic step of a thread: it fails to open its input, it has opened one (with
the streams `isVideo`), it reads a packet, or it reads no more. -/
inductive Event where
  | fail (threadNum : Nat)
  | start (threadNum : Nat) (isVideo : List Bool) (now : Int)
  | read (threadNum : Nat) (packet : Packet) (now : Int)
  | finish (threadNum : Nat)
  deriving DecidableEq, Repr

/-- A step of the program; `none` where the thread cannot take it. -/
def step (nthreads : Nat) (s : ReceiverState) : Event → Option ReceiverState
  | .fail i =>
    if i < nthreads ∧ s.threads i = .starting then
      some ({ s with nready := atomicInc s.nready }.setPhase i .ended)
    else none
  | .start i isVideo now =>
    if i < nthreads ∧ s.threads i = .starting then
      some (s.setPhase i (.reading (videoStreamIndex isVideo) 0 now))
    else none
  | .read i packet now =>
    match s.threads i with
    | .reading index size start =>
      if i < nthreads then some (readPacket s i index size start packet now) else none
    | _ => none
  | .finish i =>
    match s.threads i with
    | .reading _ size start => if i < nthreads then some (finish s i size start) else none
    | _ => none

/-! ## What the counters hold -/

/-- The packet read in a step, and the thread that reads it. -/
def Event.packet : Event → Option (Nat × Packet)
  | .read i packet _ => some (i, packet)
  | .fail _ | .start _ _ _ | .finish _ => none

/-- The packets that have been read, in order. -/
def packetsRead (evs : List Event) : List (Nat × Packet) :=
  evs.filterMap Event.packet

/-- The packets that a thread has read of the stream `index` of its input. -/
def streamPackets (threadNum index : Nat) (evs : List Event) : List (Nat × Packet) :=
  (packetsRead evs).filter fun r => r.1 = threadNum ∧ r.2.streamIndex = index

/-- The size of some packets. -/
def totalSize (packets : List (Nat × Packet)) : Nat :=
  (packets.map (·.2.size)).sum

theorem packetsRead_concat (evs : List Event) (e : Event) :
    packetsRead (evs ++ [e]) = packetsRead evs ++ e.packet.toList := by
  rw [packetsRead, List.filterMap_append]
  cases h : e.packet <;> simp [h, packetsRead]

theorem streamPackets_concat (i index : Nat) (evs : List Event) (e : Event) :
    streamPackets i index (evs ++ [e]) =
      streamPackets i index evs ++
        e.packet.toList.filter fun r => r.1 = i ∧ r.2.streamIndex = index := by
  rw [streamPackets, packetsRead_concat, List.filter_append]
  rfl

theorem totalSize_append (xs ys : List (Nat × Packet)) :
    totalSize (xs ++ ys) = totalSize xs + totalSize ys := by
  simp [totalSize]

/-- The global counter holds the number of all packets read, and each thread's `size`
the total of its own video stream. -/
structure ReadTotals (evs : List Event) (s : ReceiverState) : Prop where
  pkts : s.pkts = (packetsRead evs).length
  starting : ∀ i, s.threads i = .starting → ∀ r ∈ packetsRead evs, r.1 ≠ i
  size : ∀ i index size start, s.threads i = .reading index size start →
    size = totalSize (streamPackets i index evs)

theorem setPhase_threads (s : ReceiverState) (i j : Nat) (p : Phase) :
    (s.setPhase i p).threads j = if j = i then p else s.threads j := by
  simp [ReceiverState.setPhase, Function.update_apply]

theorem readTotals_initial : ReadTotals [] initial where
  pkts := rfl
  starting := by simp [packetsRead]
  size := by simp [initial]

/-- A step that reads no packet and ends its thread. -/
theorem ReadTotals.ended {evs : List Event} {s s' : ReceiverState} {e : Event}
    (h : ReadTotals evs s) (he : e.packet = none) {i : Nat} (hpkts : s'.pkts = s.pkts)
    (hthreads : s'.threads = (s.setPhase i .ended).threads) :
    ReadTotals (evs ++ [e]) s' := by
  have hreads : packetsRead (evs ++ [e]) = packetsRead evs := by
    rw [packetsRead_concat, he, Option.toList_none, List.append_nil]
  refine ⟨?_, ?_, ?_⟩
  · rw [hreads, hpkts, h.pkts]
  · intro j hj
    rw [hthreads, setPhase_threads] at hj
    split_ifs at hj with hji
    rw [hreads]
    exact h.starting j hj
  · intro j index size start hj
    rw [hthreads, setPhase_threads] at hj
    split_ifs at hj with hji
    rw [streamPackets, hreads]
    exact h.size j index size start hj

/-- A thread that starts to read. -/
theorem ReadTotals.started {evs : List Event} {s : ReceiverState} (h : ReadTotals evs s)
    {i : Nat} (hi : s.threads i = .starting) (isVideo : List Bool) (now : Int) :
    ReadTotals (evs ++ [.start i isVideo now])
      (s.setPhase i (.reading (videoStreamIndex isVideo) 0 now)) := by
  have hreads : packetsRead (evs ++ [.start i isVideo now]) = packetsRead evs := by
    rw [packetsRead_concat]
    exact List.append_nil _
  refine ⟨?_, ?_, ?_⟩
  · rw [hreads]
    exact h.pkts
  · intro j hj
    rw [setPhase_threads] at hj
    split_ifs at hj with hji
    rw [hreads]
    exact h.starting j hj
  · intro j index size start hj
    rw [setPhase_threads] at hj
    rw [streamPackets, hreads]
    split_ifs at hj with hji
    · have hnone : streamPackets j index evs = [] := by
        refine List.filter_eq_nil_iff.mpr fun r hr hown => ?_
        rw [decide_eq_true_eq] at hown
        exact h.starting i hi r hr (hown.1.trans hji)
      cases hj
      rw [← streamPackets, hnone]
      rfl
    · exact h.size j index size start hj

/-- A thread that reads a packet. -/
theorem ReadTotals.read {evs : List Event} {s : ReceiverState} (h : ReadTotals evs s)
    {i index size : Nat} {start : Int} (hi : s.threads i = .reading index size start)
    (packet : Packet) (now : Int) :
    ReadTotals (evs ++ [.read i packet now])
      (readPacket s i index size start packet now) := by
  refine ⟨?_, ?_, ?_⟩
  · rw [packetsRead_concat, List.length_append, ← h.pkts]
    rfl
  · intro j hj r hr
    rw [readPacket, setPhase_threads] at hj
    split_ifs at hj with hji
    rw [packetsRead_concat, List.mem_append] at hr
    rcases hr with hr | hr
    · exact h.starting j hj r hr
    · simp only [Event.packet, Option.toList_some, List.mem_singleton] at hr
      rw [hr]
      exact Ne.symm hji
  · intro j index' size' start' hj
    rw [streamPackets_concat, totalSize_append]
    rw [readPacket, setPhase_threads] at hj
    split_ifs at hj with hji hown
    · cases hj
      rw [hji, ← h.size i index size start hi]
      simp [Event.packet, hown, totalSize]
    · cases hj
      rw [hji, ← h.size i index size start hi]
      simp [Event.packet, hown, totalSize]
    · rw [← h.size j index' size' start' hj]
      simp [Event.packet, totalSize, Ne.symm hji]

theorem ReadTotals.step {nthreads : Nat} {evs : List Event} {s s' : ReceiverState}
    {e : Event} (h : ReadTotals evs s) (hs : step nthreads s e = some s') :
    ReadTotals (evs ++ [e]) s' := by
  cases e with
  | fail i =>
    simp only [Ffmpeg.step, Option.ite_none_right_eq_some, Option.some.injEq] at hs
    obtain ⟨-, rfl⟩ := hs
    exact h.ended rfl rfl rfl
  | start i isVideo now =>
    simp only [Ffmpeg.step, Option.ite_none_right_eq_some, Option.some.injEq] at hs
    obtain ⟨⟨-, hi⟩, rfl⟩ := hs
    exact h.started hi isVideo now
  | read i packet now =>
    cases hi : s.threads i with
    | reading index size start =>
      simp only [Ffmpeg.step, hi, Option.ite_none_right_eq_some, Option.some.injEq] at hs
      obtain ⟨-, rfl⟩ := hs
      exact h.read hi packet now
    | starting | ended => simp [Ffmpeg.step, hi] at hs
  | finish i =>
    cases hi : s.threads i with
    | reading index size start =>
      simp only [Ffmpeg.step, hi, Option.ite_none_right_eq_some, Option.some.injEq] at hs
      obtain ⟨-, rfl⟩ := hs
      exact h.ended rfl rfl rfl
    | starting | ended => simp [Ffmpeg.step, hi] at hs

/-- The counters after a run. -/
theorem read_totals {nthreads : Nat} {evs : List Event} {s : ReceiverState}
    (hrun : Run (step nthreads) initial evs s) : ReadTotals evs s :=
  hrun.invariant readTotals_initial fun _ _ _ _ _ h hs => h.step hs

/-- A line holds the totals of the stream `index` of its thread. -/
def OwnTotals (index : Nat) (evs : List Event) (line : ResultLine) : Prop :=
  line.pkts = (streamPackets line.thread index evs).length ∧
    line.size = totalSize (streamPackets line.thread index evs)

instance (index : Nat) (evs : List Event) (line : ResultLine) :
    Decidable (OwnTotals index evs line) :=
  inferInstanceAs (Decidable (_ ∧ _))

/-- A new line is printed at the end of a thread that was reading. -/
theorem line_of_step {nthreads : Nat} {s s' : ReceiverState} {e : Event} {line : ResultLine}
    (hs : step nthreads s e = some s') (hline : s'.lines = s.lines ++ [line]) :
    ∃ i index size start, e = .finish i ∧ s.threads i = .reading index size start ∧
      line.thread = i ∧ line.pkts = s.pkts ∧ line.size = size := by
  have hnone : s.lines ≠ s.lines ++ [line] := by simp
  cases e with
  | fail i =>
    simp only [step, Option.ite_none_right_eq_some, Option.some.injEq] at hs
    obtain ⟨-, rfl⟩ := hs
    exact absurd hline hnone
  | start i isVideo now =>
    simp only [step, Option.ite_none_right_eq_some, Option.some.injEq] at hs
    obtain ⟨-, rfl⟩ := hs
    exact absurd hline hnone
  | read i packet now =>
    cases hi : s.threads i with
    | reading index size start =>
      simp only [step, hi, Option.ite_none_right_eq_some, Option.some.injEq] at hs
      obtain ⟨-, rfl⟩ := hs
      exact absurd hline hnone
    | starting | ended => simp [step, hi] at hs
  | finish i =>
    cases hi : s.threads i with
    | reading index size start =>
      simp only [step, hi, Option.ite_none_right_eq_some, Option.some.injEq] at hs
      obtain ⟨-, rfl⟩ := hs
      have hlast := List.append_cancel_left (show s.lines ++ [_] = s.lines ++ [line] from hline)
      rw [List.singleton_inj] at hlast
      subst hlast
      exact ⟨i, index, size, start, rfl, hi, rfl, rfl, rfl⟩
    | starting | ended => simp [step, hi] at hs

/-- A line of a run holds the totals of its thread's own video stream if and only if no
other packet has been read. -/
theorem ownTotals_iff {nthreads : Nat} {evs : List Event} {e : Event}
    {s s' : ReceiverState} {line : ResultLine} (hrun : Run (step nthreads) initial evs s)
    (hs : step nthreads s e = some s') (hline : s'.lines = s.lines ++ [line]) {index size : Nat}
    {start : Int} (hi : s.threads line.thread = .reading index size start) :
    OwnTotals index (evs ++ [e]) line ↔
      ∀ r ∈ packetsRead (evs ++ [e]), r.1 = line.thread ∧ r.2.streamIndex = index := by
  have h := read_totals hrun
  obtain ⟨i, index', size', start', rfl, hi', rfl, hpkts, hsize⟩ := line_of_step hs hline
  rw [hi] at hi'
  cases hi'
  have hreads : packetsRead (evs ++ [.finish line.thread]) = packetsRead evs := by
    rw [packetsRead_concat]
    exact List.append_nil _
  have hmem : (∀ r ∈ packetsRead evs, r.1 = line.thread ∧ r.2.streamIndex = index) ↔
      ∀ r ∈ packetsRead evs, decide (r.1 = line.thread ∧ r.2.streamIndex = index) := by
    simp
  rw [OwnTotals, streamPackets, hreads, ← streamPackets, hmem, hpkts, hsize, h.pkts,
    h.size _ index size start hi]
  constructor
  · rintro ⟨hlength, -⟩
    exact List.length_filter_eq_length_iff.mp hlength.symm
  · intro hall
    exact ⟨(List.length_filter_eq_length_iff.mpr hall).symm, rfl⟩

end RtpBenchmarks.Ffmpeg

namespace RtpBenchmarks

open RtpBenchmarks.Foundation

/-! ## Both receivers -/

/-- The lines of the two multi-threaded receivers hold the totals of their own threads'
streams exactly when no other stream has been counted with them: for uvgRTP that of
another thread with the same slot, for FFmpeg any other. -/
theorem receivers_ownTotals_iff (nthreads : Nat) :
    (∀ {evs : List Uvgrtp.Event} {e : Uvgrtp.Event}
        {s s' : Uvgrtp.ReceiverState} {line : Uvgrtp.ResultLine},
      Run (Uvgrtp.step nthreads) Uvgrtp.initial evs s → Uvgrtp.step nthreads s e = some s' →
        s'.results = s.results ++ [line] →
        (Uvgrtp.OwnTotals (evs ++ [e]) line ↔
          ∀ a ∈ Uvgrtp.arrivals (evs ++ [e]),
            Uvgrtp.tidOf a.1 = Uvgrtp.tidOf line.thread → a.1 = line.thread)) ∧
    (∀ {evs : List Ffmpeg.Event} {e : Ffmpeg.Event}
        {s s' : Ffmpeg.ReceiverState} {line : Ffmpeg.ResultLine} {index size : Nat}
        {start : Int},
      Run (Ffmpeg.step nthreads) Ffmpeg.initial evs s → Ffmpeg.step nthreads s e = some s' →
        s'.lines = s.lines ++ [line] → s.threads line.thread = .reading index size start →
        (Ffmpeg.OwnTotals index (evs ++ [e]) line ↔
          ∀ r ∈ Ffmpeg.packetsRead (evs ++ [e]),
            r.1 = line.thread ∧ r.2.streamIndex = index)) :=
  ⟨fun hrun hs hline => Uvgrtp.ownTotals_iff hrun hs hline,
    fun hrun hs hline hi => Ffmpeg.ownTotals_iff hrun hs hline hi⟩

/-- One thread of each receiver, with one frame of three bytes. -/
theorem receivers_ownTotals_single :
    Uvgrtp.OwnTotals
      ([.install 0 true 0, .hook 0 (some ⟨[1, 2, 3]⟩) 1 2, .iterate 0 5] ++
        [.iterate 0 300000000])
      { thread := 0, bytes := 3, packets := 1, diffMs := 0 } ∧
    Ffmpeg.OwnTotals 0
      ([.start 0 [true] 0, .read 0 { streamIndex := 0, size := 3 } 1] ++ [.finish 0])
      { thread := 0, discard := true, size := 3, pkts := 1, diffMs := 0 } :=
  ⟨((receivers_ownTotals_iff 1).1 (run_get rfl) rfl rfl).mpr (by decide),
    ((receivers_ownTotals_iff 1).2 (run_get rfl) rfl rfl rfl).mpr (by decide)⟩

/-- The frame of thread 1's stream comes before thread 0 times out. -/
def otherThreadHook : List Uvgrtp.Event :=
  [.install 0 true 0, .install 1 true 0, .hook 1 (some ⟨[1, 2, 3]⟩) 1 2, .iterate 0 5,
    .iterate 0 300000000]

/-- Thread 1 reads a packet before thread 0 reads no more. -/
def otherThreadRead : List Ffmpeg.Event :=
  [.start 0 [true] 0, .start 1 [true] 0, .read 1 { streamIndex := 0, size := 3 } 1, .finish 0]

/-- With two threads, the frame of thread 1 is counted in the line of thread 0. -/
theorem receivers_not_ownTotals :
    (∃ s line, Run (Uvgrtp.step 2) Uvgrtp.initial otherThreadHook s ∧ s.results = [line] ∧
      line.thread = 0 ∧ line.packets = 1 ∧ ¬ Uvgrtp.OwnTotals otherThreadHook line) ∧
    (∃ s line, Run (Ffmpeg.step 2) Ffmpeg.initial otherThreadRead s ∧ s.lines = [line] ∧
      line.thread = 0 ∧ line.pkts = 1 ∧ ¬ Ffmpeg.OwnTotals 0 otherThreadRead line) :=
  ⟨⟨_, _, run_get rfl, rfl, rfl, rfl, by decide⟩, ⟨_, _, run_get rfl, rfl, rfl, rfl, by decide⟩⟩

end RtpBenchmarks
