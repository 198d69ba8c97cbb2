import Mathlib.Data.List.Nodup
import RtpBenchmarks.Ffmpeg.Receiver
import RtpBenchmarks.Foundation.DecimalText

set_option autoImplicit false

/-!
# Output of the FFmpeg receiver

A thread writes one line to the standard error output at its end: why it could not read, or
what it has received.  `Logged` adds this output to the state of the program.

The bytes in a line are those of the thread's own video stream, in every run.  The packets in
it are all that had been read so far, by any thread.
-/

namespace RtpBenchmarks.Ffmpeg

open RtpBenchmarks.Foundation

/-! ## The code -/

/-- Why a thread ends before it reads. -/
inductive Failure where
  | openInput
  | findStreamInfo
  deriving DecidableEq, Repr

/-- What a thread writes at its end. -/
inductive Output where
  | failed (thread : Nat) (failure : Failure)
  | result (line : ResultLine)
  deriving DecidableEq, Repr

def Failure.text : Failure → List Char
  | .openInput => "failed to open input file\n".toList
  | .findStreamInfo => "failed to find stream info!\n".toList

def ResultLine.text (line : ResultLine) : List Char :=
  (if line.discard then "discard ".toList else []) ++
    fieldsText [(line.size, " ".toList), (line.pkts, " ".toList), (line.diffMs, "\n".toList)]

def Output.text : Output → List Char
  | .failed _ failure => failure.text
  | .result line => line.text

def Output.thread : Output → Nat
  | .failed i _ => i
  | .result line => line.thread

/-- The bytes, the packets and the milliseconds of an output: none of a failure. -/
def Output.size : Output → Nat
  | .failed _ _ => 0
  | .result line => line.size

def Output.pkts : Output → Nat
  | .failed _ _ => 0
  | .result line => line.pkts

def Output.ms : Output → Nat
  | .failed _ _ => 0
  | .result line => line.diffMs

/-- The program and what it has written. -/
structure Logged where
  state : ReceiverState := initial
  outputs : List Output := []

/-- What a step writes that leads to `s`, and how it fails if it does. -/
def Event.outputs (s : ReceiverState) (failure : Failure) : Event → List Output
  | .fail i => [.failed i failure]
  | .finish _ => s.lines.getLast?.toList.map Output.result
  | .start _ _ _ | .read _ _ _ => []

def Logged.step (nthreads : Nat) (x : Logged) (e : Event × Failure) : Option Logged :=
  (Ffmpeg.step nthreads x.state e.1).map fun s =>
    { state := s, outputs := x.outputs ++ e.1.outputs s e.2 }

/-! ## What a thread has received -/

/-- The thread that takes a step. -/
def Event.thread : Event → Nat
  | .fail i | .start i _ _ | .read i _ _ | .finish i => i

/-- The video stream in the input that a thread opens. -/
def Event.videoIndex (i : Nat) : Event → Option Nat
  | .start j isVideo _ => if j = i then some (videoStreamIndex isVideo) else none
  | .fail _ | .read _ _ _ | .finish _ => none

def videoIndex (i : Nat) (evs : List Event) : Option Nat :=
  evs.findSome? (Event.videoIndex i)

/-- The bytes that a thread has received of its video stream. -/
def threadBytes (i : Nat) (evs : List Event) : Nat :=
  ((videoIndex i evs).map fun index => totalSize (streamPackets i index evs)).getD 0

/-- The packets that a thread has received. -/
def threadPackets (i : Nat) (evs : List Event) : Nat :=
  (packetsRead evs).countP (·.1 = i)

section Received

variable {evs : List Event} {e : Event} {i : Nat}

theorem videoIndex_concat :
    videoIndex i (evs ++ [e]) = (videoIndex i evs).or (e.videoIndex i) := by
  rw [videoIndex, List.findSome?_append, List.findSome?_singleton]
  rfl

theorem Event.videoIndex_of_ne (h : e.thread ≠ i) : e.videoIndex i = none := by
  cases e with
  | start j isVideo now => exact if_neg h
  | fail j | read j packet now | finish j => rfl

theorem Event.fst_packet {r : Nat × Packet} (h : e.packet = some r) : r.1 = e.thread := by
  cases e with
  | read j packet now =>
    obtain rfl := Option.some.inj h
    rfl
  | fail j | start j isVideo now | finish j => cases h

theorem threadPackets_concat :
    threadPackets i (evs ++ [e]) =
      threadPackets i evs + e.packet.toList.countP (·.1 = i) := by
  rw [threadPackets, packetsRead_concat, List.countP_append]
  rfl

theorem threadPackets_le : threadPackets i evs ≤ (packetsRead evs).length :=
  List.countP_le_length

/-- A step of another thread. -/
theorem received_of_ne (h : e.thread ≠ i) :
    threadBytes i (evs ++ [e]) = threadBytes i evs ∧
      threadPackets i (evs ++ [e]) = threadPackets i evs := by
  have hpacket : ∀ r ∈ e.packet.toList, r.1 ≠ i := fun r hr =>
    Event.fst_packet (Option.mem_toList.mp hr) ▸ h
  constructor
  · rw [threadBytes, threadBytes, videoIndex_concat, Event.videoIndex_of_ne h, Option.or_none]
    congr 2
    funext index
    have hnone : e.packet.toList.filter (fun r => r.1 = i ∧ r.2.streamIndex = index) = [] :=
      List.filter_eq_nil_iff.mpr fun r hr hown => hpacket r hr (of_decide_eq_true hown).1
    rw [streamPackets_concat, hnone, List.append_nil]
  · have hnone : e.packet.toList.countP (fun r => decide (r.1 = i)) = 0 :=
      List.countP_eq_zero.mpr fun r hr hown => hpacket r hr (of_decide_eq_true hown)
    rw [threadPackets_concat, hnone, Nat.add_zero]

/-- A step in which nothing is read and no input opened. -/
theorem received_of_none (hpacket : e.packet = none) (hindex : e.videoIndex i = none) :
    threadBytes i (evs ++ [e]) = threadBytes i evs ∧
      threadPackets i (evs ++ [e]) = threadPackets i evs := by
  constructor
  · have hstream : ∀ index, streamPackets i index (evs ++ [e]) = streamPackets i index evs := by
      intro index
      rw [streamPackets_concat, hpacket, Option.toList_none, List.filter_nil, List.append_nil]
    simp only [threadBytes, videoIndex_concat, hindex, Option.or_none, hstream]
  · rw [threadPackets_concat, hpacket]
    rfl

end Received

/-! ## Steps -/

section Steps

variable {nthreads : Nat} {x x' : Logged} {e : Event} {failure : Failure}

/-- A step is one of a thread that has not ended, and leaves the others as they are. -/
structure Moves (nthreads : Nat) (x x' : Logged) (e : Event) : Prop where
  lt : e.thread < nthreads
  before : x.state.threads e.thread ≠ .ended
  others : ∀ j, j ≠ e.thread → x'.state.threads j = x.state.threads j

/-- The thread goes on to read: it has opened its input, or has read a packet. -/
structure GoesOn (x x' : Logged) (e : Event) : Prop where
  outputs : x'.outputs = x.outputs
  reads : ∃ index size start, x'.state.threads e.thread = .reading index size start ∧
    ((x.state.threads e.thread = .starting ∧ e.videoIndex e.thread = some index) ∨
      ∃ size', x.state.threads e.thread = .reading index size' start)

/-- The thread ends with an output. -/
structure Ends (x x' : Logged) (e : Event) (o : Output) : Prop where
  outputs : x'.outputs = x.outputs ++ [o]
  ended : x'.state.threads e.thread = .ended
  thread : o.thread = e.thread
  packet : e.packet = none
  videoIndex : e.videoIndex e.thread = none
  written : (x.state.threads e.thread = .starting ∧ ∃ failure, o = .failed e.thread failure) ∨
    ∃ index start line, x.state.threads e.thread = .reading index line.size start ∧
      o = .result line ∧ line.pkts = x.state.pkts ∧ (line.discard ↔ line.pkts ≠ 598)

theorem Moves.of_update {p q : Phase} (hlt : e.thread < nthreads)
    (hbefore : x.state.threads e.thread = p) (hp : p ≠ .ended)
    (hthreads : x'.state.threads = Function.update x.state.threads e.thread q) :
    Moves nthreads x x' e where
  lt := hlt
  before := hbefore.symm ▸ hp
  others j hj := by rw [hthreads, Function.update_of_ne hj]

theorem Logged.step_cases (h : Logged.step nthreads x (e, failure) = some x') :
    Moves nthreads x x' e ∧ (GoesOn x x' e ∨ ∃ o, Ends x x' e o) := by
  obtain ⟨s, hs, rfl⟩ := Option.map_eq_some_iff.mp h
  cases e with
  | fail i =>
    simp only [Ffmpeg.step, Option.ite_none_right_eq_some, Option.some.injEq] at hs
    obtain ⟨⟨hlt, hi⟩, rfl⟩ := hs
    exact ⟨.of_update hlt hi Phase.noConfusion rfl,
      .inr ⟨.failed i failure, rfl, Function.update_self _ _ _, rfl, rfl, rfl,
        .inl ⟨hi, failure, rfl⟩⟩⟩
  | start i isVideo now =>
    simp only [Ffmpeg.step, Option.ite_none_right_eq_some, Option.some.injEq] at hs
    obtain ⟨⟨hlt, hi⟩, rfl⟩ := hs
    exact ⟨.of_update hlt hi Phase.noConfusion rfl,
      .inl ⟨List.append_nil _, _, _, _, Function.update_self _ _ _, .inl ⟨hi, if_pos rfl⟩⟩⟩
  | read i packet now =>
    cases hi : x.state.threads i with
    | reading index size start =>
      simp only [Ffmpeg.step, hi, Option.ite_none_right_eq_some, Option.some.injEq] at hs
      obtain ⟨hlt, rfl⟩ := hs
      exact ⟨.of_update hlt hi Phase.noConfusion rfl,
        .inl ⟨List.append_nil _, _, _, _, Function.update_self _ _ _, .inr ⟨_, hi⟩⟩⟩
    | starting | ended => simp [Ffmpeg.step, hi] at hs
  | finish i =>
    cases hi : x.state.threads i with
    | reading index size start =>
      simp only [Ffmpeg.step, hi, Option.ite_none_right_eq_some, Option.some.injEq] at hs
      obtain ⟨hlt, rfl⟩ := hs
      let line : ResultLine :=
        ⟨i, x.state.pkts ≠ 598, size, x.state.pkts, milliseconds (x.state.last - start)⟩
      have hdiscard : line.discard ↔ line.pkts ≠ 598 := decide_eq_true_iff
      refine ⟨.of_update hlt hi Phase.noConfusion rfl,
        .inr ⟨.result line, ?_, Function.update_self _ _ _, rfl, rfl, rfl,
          .inr ⟨index, start, line, hi, rfl, rfl, hdiscard⟩⟩⟩
      simp [Event.outputs, finish, ReceiverState.setPhase, line]
    | starting | ended => simp [Ffmpeg.step, hi] at hs

theorem Logged.run_state {as : List (Event × Failure)}
    (hrun : Run (Logged.step nthreads) {} as x) :
    Run (Ffmpeg.step nthreads) initial (as.map Prod.fst) x.state := by
  refine Run.invariant
    (I := fun as x => Run (Ffmpeg.step nthreads) initial (as.map Prod.fst) x.state)
    (run_nil.mpr rfl) (fun done mid a mid' _ hmid hstep => ?_) hrun
  obtain ⟨s, hs, rfl⟩ := Option.map_eq_some_iff.mp hstep
  rw [List.map_append, List.map_singleton]
  exact run_concat.mpr ⟨mid.state, hmid, hs⟩

end Steps

/-! ## What is written in a run -/

/-- The lines with results among some outputs. -/
def results (outputs : List Output) : List ResultLine :=
  outputs.filterMap fun
    | .failed _ _ => none
    | .result line => some line

/-- The threads that have ended have written a line each, with the bytes of their own video
streams.  The packets are at least those of the thread; while no thread reads, the last line
with a result tells all. -/
structure Written (nthreads : Nat) (evs : List Event) (x : Logged) : Prop where
  nodup : (x.outputs.map Output.thread).Nodup
  ended : ∀ i, i ∈ x.outputs.map Output.thread ↔ x.state.threads i = .ended
  lt : ∀ i, x.state.threads i ≠ .starting → i < nthreads
  unopened : ∀ i, x.state.threads i = .starting → videoIndex i evs = none
  opened : ∀ i index size start, x.state.threads i = .reading index size start →
    videoIndex i evs = some index
  size : ∀ o ∈ x.outputs, o.size = threadBytes o.thread evs
  own : ∀ o ∈ x.outputs, threadPackets o.thread evs ≤ o.pkts
  discard : ∀ line ∈ results x.outputs, line.discard ↔ line.pkts ≠ 598
  increasing : ((results x.outputs).map ResultLine.pkts).Pairwise (· ≤ ·)
  le : ∀ line ∈ results x.outputs, line.pkts ≤ (packetsRead evs).length
  all : (∃ i, x.state.threads i ≠ .starting ∧ x.state.threads i ≠ .ended) ∨
    (packetsRead evs).length = ((results x.outputs).getLast?.map ResultLine.pkts).getD 0

section Written

variable {nthreads : Nat} {evs : List Event} {x x' : Logged} {e : Event}

theorem results_concat (outputs : List Output) (o : Output) :
    results (outputs ++ [o]) = results outputs ++ results [o] := by
  rw [results, List.filterMap_append]
  rfl

theorem written_initial : Written nthreads [] {} where
  nodup := List.nodup_nil
  ended _ := iff_of_false List.not_mem_nil Phase.noConfusion
  lt _ h := absurd rfl h
  unopened _ _ := rfl
  opened _ _ _ _ h := Phase.noConfusion h
  size _ h := absurd h List.not_mem_nil
  own _ h := absurd h List.not_mem_nil
  discard _ h := absurd h List.not_mem_nil
  increasing := List.Pairwise.nil
  le _ h := absurd h List.not_mem_nil
  all := .inr rfl

theorem length_packetsRead_le : (packetsRead evs).length ≤ (packetsRead (evs ++ [e])).length := by
  rw [packetsRead_concat, List.length_append]
  exact Nat.le_add_right _ _

/-- What a thread that has ended has received does not change. -/
theorem Written.received (h : Written nthreads evs x) (hmoves : Moves nthreads x x' e)
    {o : Output} (ho : o ∈ x.outputs) :
    threadBytes o.thread (evs ++ [e]) = threadBytes o.thread evs ∧
      threadPackets o.thread (evs ++ [e]) = threadPackets o.thread evs := by
  refine received_of_ne fun heq => hmoves.before ?_
  rw [heq]
  exact (h.ended o.thread).mp (List.mem_map_of_mem ho)

theorem Written.lt_of_moves (h : Written nthreads evs x) (hmoves : Moves nthreads x x' e) :
    ∀ i, x'.state.threads i ≠ .starting → i < nthreads := by
  intro i hi
  rcases eq_or_ne i e.thread with rfl | hne
  · exact hmoves.lt
  · rw [hmoves.others i hne] at hi
    exact h.lt i hi

/-- A thread that has not opened its input. -/
theorem Written.unopened_of_moves (h : Written nthreads evs x) (hmoves : Moves nthreads x x' e)
    (hown : x'.state.threads e.thread ≠ .starting) :
    ∀ i, x'.state.threads i = .starting → videoIndex i (evs ++ [e]) = none := by
  intro i hi
  have hne : i ≠ e.thread := fun heq => hown (heq ▸ hi)
  rw [hmoves.others i hne] at hi
  rw [videoIndex_concat, Event.videoIndex_of_ne hne.symm, h.unopened i hi, Option.or_none]

theorem Written.goesOn (h : Written nthreads evs x) (hmoves : Moves nthreads x x' e)
    (hstep : GoesOn x x' e) : Written nthreads (evs ++ [e]) x' := by
  obtain ⟨houtputs, index, size, start, hown, hbefore⟩ := hstep
  have hstarting : x'.state.threads e.thread ≠ .starting := by
    rw [hown]
    exact Phase.noConfusion
  have hended : x'.state.threads e.thread ≠ .ended := by
    rw [hown]
    exact Phase.noConfusion
  refine ⟨houtputs ▸ h.nodup, fun i => ?_, h.lt_of_moves hmoves,
    h.unopened_of_moves hmoves hstarting, fun i index' size' start' hi => ?_, fun o ho => ?_,
    fun o ho => ?_, houtputs ▸ h.discard, houtputs ▸ h.increasing, fun line hline => ?_,
    .inl ⟨e.thread, hstarting, hended⟩⟩
  · rw [houtputs, h.ended]
    rcases eq_or_ne i e.thread with rfl | hne
    · exact iff_of_false hmoves.before hended
    · rw [hmoves.others i hne]
  · rw [videoIndex_concat]
    rcases eq_or_ne i e.thread with rfl | hne
    · obtain ⟨rfl, -, -⟩ := Phase.reading.inj (hown.symm.trans hi)
      rcases hbefore with ⟨hbefore, hopened⟩ | ⟨size'', hbefore⟩
      · rw [h.unopened _ hbefore, Option.none_or, hopened]
      · rw [h.opened _ _ _ _ hbefore, Option.some_or]
    · rw [hmoves.others i hne] at hi
      rw [h.opened _ _ _ _ hi, Option.some_or]
  · rw [houtputs] at ho
    rw [(h.received hmoves ho).1]
    exact h.size o ho
  · rw [houtputs] at ho
    rw [(h.received hmoves ho).2]
    exact h.own o ho
  · rw [houtputs] at hline
    exact Nat.le_trans (h.le line hline) length_packetsRead_le

/-- What a thread writes at its end. -/
theorem Written.written (h : Written nthreads evs x) (htotals : ReadTotals evs x.state)
    {o : Output} (hstep : Ends x x' e o) :
    o.size = threadBytes e.thread evs ∧ threadPackets e.thread evs ≤ o.pkts ∧
      ∀ line ∈ results [o], line.pkts = (packetsRead evs).length ∧
        (line.discard ↔ line.pkts ≠ 598) := by
  rcases hstep.written with ⟨hi, failure, rfl⟩ | ⟨index, start, line, hi, rfl, hpkts, hdiscard⟩
  · refine ⟨?_, ?_, fun line hline => absurd hline List.not_mem_nil⟩
    · rw [threadBytes, h.unopened _ hi]
      rfl
    · refine Nat.le_of_eq (List.countP_eq_zero.mpr fun r hr hown => ?_)
      exact htotals.starting _ hi r hr (of_decide_eq_true hown)
  · have hall : line.pkts = (packetsRead evs).length := hpkts.trans htotals.pkts
    refine ⟨?_, ?_, fun line' hline => ?_⟩
    · rw [threadBytes, h.opened _ _ _ _ hi]
      exact htotals.size _ _ _ _ hi
    · exact Nat.le_trans threadPackets_le (Nat.le_of_eq hall.symm)
    · obtain rfl := List.mem_singleton.mp hline
      exact ⟨hall, hdiscard⟩

theorem Written.ends (h : Written nthreads evs x) (htotals : ReadTotals evs x.state)
    (hmoves : Moves nthreads x x' e) {o : Output} (hstep : Ends x x' e o) :
    Written nthreads (evs ++ [e]) x' := by
  obtain ⟨hsize, hown, hline⟩ := h.written htotals hstep
  obtain ⟨hbytes, hpackets⟩ := @received_of_none evs e _ hstep.packet hstep.videoIndex
  have hreads : packetsRead (evs ++ [e]) = packetsRead evs := by
    rw [packetsRead_concat, hstep.packet]
    exact List.append_nil _
  have hstarting : x'.state.threads e.thread ≠ .starting := by
    rw [hstep.ended]
    exact Phase.noConfusion
  have hnew : e.thread ∉ x.outputs.map Output.thread := fun hmem =>
    hmoves.before ((h.ended _).mp hmem)
  have hresults : ∀ line ∈ results (x.outputs ++ [o]),
      line ∈ results x.outputs ∨ line ∈ results [o] := by
    intro line hmem
    rwa [results_concat, List.mem_append] at hmem
  refine ⟨?_, fun i => ?_, h.lt_of_moves hmoves, h.unopened_of_moves hmoves hstarting,
    fun i index size start hi => ?_, fun o' ho => ?_, fun o' ho => ?_, fun line hmem => ?_, ?_,
    fun line hmem => ?_, ?_⟩
  · rw [hstep.outputs, List.map_append, List.map_singleton, hstep.thread]
    refine List.nodup_append.mpr ⟨h.nodup, List.nodup_singleton _, fun i hi j hj => ?_⟩
    rw [List.mem_singleton.mp hj]
    exact fun heq => hnew (heq ▸ hi)
  · rw [hstep.outputs, List.map_append, List.mem_append, List.map_singleton, List.mem_singleton,
      hstep.thread, h.ended]
    rcases eq_or_ne i e.thread with rfl | hne
    · exact iff_of_true (.inr rfl) hstep.ended
    · rw [hmoves.others i hne, or_iff_left hne]
  · have hne : i ≠ e.thread := by
      rintro rfl
      rw [hstep.ended] at hi
      cases hi
    rw [hmoves.others i hne] at hi
    rw [videoIndex_concat, h.opened _ _ _ _ hi, Option.some_or]
  · rw [hstep.outputs] at ho
    rcases List.mem_append.mp ho with ho | ho
    · rw [(h.received hmoves ho).1]
      exact h.size o' ho
    · obtain rfl := List.mem_singleton.mp ho
      rw [hstep.thread, hbytes, hsize]
  · rw [hstep.outputs] at ho
    rcases List.mem_append.mp ho with ho | ho
    · rw [(h.received hmoves ho).2]
      exact h.own o' ho
    · obtain rfl := List.mem_singleton.mp ho
      rw [hstep.thread, hpackets]
      exact hown
  · rw [hstep.outputs] at hmem
    rcases hresults line hmem with hmem | hmem
    · exact h.discard line hmem
    · exact (hline line hmem).2
  · rw [hstep.outputs, results_concat, List.map_append]
    refine List.pairwise_append.mpr ⟨h.increasing, ?_, fun m hm m' hm' => ?_⟩
    · cases o with
      | failed i failure => exact List.Pairwise.nil
      | result line => exact List.pairwise_singleton _ _
    · obtain ⟨line, hmem, rfl⟩ := List.mem_map.mp hm
      obtain ⟨line', hmem', rfl⟩ := List.mem_map.mp hm'
      rw [(hline line' hmem').1]
      exact h.le line hmem
  · rw [hstep.outputs] at hmem
    rw [hreads]
    rcases hresults line hmem with hmem | hmem
    · exact h.le line hmem
    · exact Nat.le_of_eq (hline line hmem).1
  · rw [hstep.outputs, results_concat, hreads]
    rcases hstep.written with ⟨hi, failure, rfl⟩ | ⟨index, start, line, hi, rfl, -⟩
    · have hnone : results [Output.failed e.thread failure] = [] := rfl
      rw [hnone, List.append_nil]
      refine h.all.imp_left fun ⟨i, hi', hended⟩ => ⟨i, ?_⟩
      have hne : i ≠ e.thread := fun heq => hi' (heq ▸ hi)
      rw [hmoves.others i hne]
      exact ⟨hi', hended⟩
    · have hone : results [Output.result line] = [line] := rfl
      rw [hone, List.getLast?_concat]
      exact .inr (hline line (List.mem_singleton_self line)).1.symm

theorem written_of_run {as : List (Event × Failure)} (hrun : Run (Logged.step nthreads) {} as x) :
    Written nthreads (as.map Prod.fst) x := by
  refine Run.invariant (I := fun as x => Written nthreads (as.map Prod.fst) x) written_initial
    (fun done mid a mid' hdone h hstep => ?_) hrun
  obtain ⟨e, failure⟩ := a
  rw [List.map_append, List.map_singleton]
  obtain ⟨hmoves, hgoes | ⟨o, hends⟩⟩ := Logged.step_cases hstep
  · exact h.goesOn hmoves hgoes
  · exact h.ends (read_totals (Logged.run_state hdone)) hmoves hends

/-- Packets are read by threads of the program. -/
theorem Written.fst_lt (h : Written nthreads evs x) (htotals : ReadTotals evs x.state)
    {r : Nat × Packet} (hr : r ∈ packetsRead evs) : r.1 < nthreads :=
  h.lt r.1 fun hstarting => htotals.starting r.1 hstarting r hr rfl

/-- When all threads have ended there is a line of each. -/
theorem Written.threads_perm (h : Written nthreads evs x)
    (hended : ∀ i < nthreads, x.state.threads i = .ended) :
    (x.outputs.map Output.thread).Perm (List.range nthreads) := by
  refine (List.perm_ext_iff_of_nodup h.nodup List.nodup_range).mpr fun i => ?_
  rw [h.ended, List.mem_range]
  refine ⟨fun hi => h.lt i ?_, hended i⟩
  rw [hi]
  exact Phase.noConfusion

theorem Written.last (h : Written nthreads evs x)
    (hended : ∀ i < nthreads, x.state.threads i = .ended) :
    (packetsRead evs).length = ((results x.outputs).getLast?.map ResultLine.pkts).getD 0 := by
  refine h.all.resolve_left ?_
  rintro ⟨i, hstarting, hi⟩
  exact hi (hended i (h.lt i hstarting))

end Written

/-- Thread 0 cannot read, thread 1 reads one packet of each of its two streams, and thread 2 one
before that. -/
def threeThreads : List (Event × Failure) :=
  [(.start 1 [false, true] 0, .openInput), (.start 2 [true] 0, .openInput),
    (.read 2 ⟨0, 5⟩ 1, .openInput), (.fail 0, .findStreamInfo), (.read 1 ⟨0, 3⟩ 2, .openInput),
    (.read 1 ⟨1, 7⟩ 3000000, .openInput), (.finish 1, .openInput), (.finish 2, .openInput)]

end RtpBenchmarks.Ffmpeg
