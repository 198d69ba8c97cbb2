import Mathlib.Algebra.Group.Nat.Defs
import Mathlib.Algebra.Ring.Int.Defs
import RtpBenchmarks.Foundation.Fragments
import RtpBenchmarks.Foundation.Runs

set_option autoImplicit false

/-!
# Live555: the framed source (`util/live555_util.cc`)

`sendFrame` delivers one buffer a call.  Three cursors say where it is: the current chunk,
the current NAL unit of the chunk, and the offset in the NAL unit.  The null tests at the
start of a call load what is missing, and the tests at its end say what the next call has
to load.

The test for the last NAL unit of a chunk sets the chunk to null but not the NAL unit:
when another chunk follows, the next call sends the last fragment again.
-/

namespace RtpBenchmarks.Live555.FramedSource

open RtpBenchmarks.Foundation

/-! ## The code -/

/-- `MAX_WRITE_SIZE`. -/
def maxWriteSize : Nat := 1444

/-- The members that `sendFrame` uses, and the buffers delivered.  A NAL unit is the bytes
that `c_nal_` and `c_nal_len_` denote; `len` is 0 before `startFramedSource`. -/
structure State (κ : Type) where
  len : Int
  off : Int := 0
  chunks : List κ
  nals : List (List UInt8) := []
  cChunk : Option κ := none
  cNal : Option (List UInt8) := none
  cNalOff : Nat := 0
  nCalls : Nat := 0
  sent : List (List UInt8) := []
  deriving DecidableEq, Repr

section Code

variable {κ : Type} (splitIntoNals : κ → List (List UInt8))

/-- The block under `if (c_chunk_ == nullptr)`; with no chunk left it prints the statistics
and goes on to the front of an empty queue. -/
def loadChunk (s : State κ) : Option (State κ) :=
  match s.cChunk, s.chunks with
  | some _, _ => some s
  | none, [] => none
  | none, cinfo :: chunks =>
    some { s with chunks, cChunk := some cinfo, nals := s.nals ++ splitIntoNals cinfo }

/-- The block under `if (c_nal_ == nullptr)`. -/
def loadNal (s : State κ) : Option (State κ) :=
  match s.cNal, s.nals with
  | some _, _ => some s
  | none, [] => none
  | none, ninfo :: nals => some { s with nals, cNal := some ninfo, cNalOff := 0 }

/-- `send_off` and `send_len`.  `left` is an `int`, and `send_len` a `size_t`. -/
def sendRange (cNalLen cNalOff : Nat) : Nat × Nat :=
  if cNalLen < maxWriteSize then (0, cNalLen)
  else
    let left : Int := ((cNalLen : Int) - cNalOff).bmod (2 ^ 32)
    (cNalOff, if left < maxWriteSize then (left % 2 ^ 64).toNat else maxWriteSize)

/-- The rest of `sendFrame`; `none` where it reads behind the NAL unit. -/
def writeFragment (s : State κ) : Option (State κ) :=
  match s.cNal with
  | none => none
  | some nal =>
    let (sendOff, sendLen) := sendRange nal.length s.cNalOff
    if nal.length < sendOff + sendLen then none
    else
      let s := { s with sent := s.sent ++ [(nal.drop sendOff).take sendLen] }
      let nalWrittenFully : Bool := nal.length ≤ s.cNalOff + sendLen
      if nalWrittenFully ∧ s.nals = [] then
        some { s with cChunk := none, nCalls := s.nCalls + 1 }
      else if ¬ nalWrittenFully then some { s with cNalOff := s.cNalOff + sendLen }
      else some { s with cNal := none }

/-- `sendFrame`; `none` where the chunks are exhausted. -/
def sendFrame (s : State κ) : Option (State κ) :=
  if s.len = 0 ∧ s.off = 0 then some { s with sent := s.sent ++ [[]] }
  else do
    let s ← loadChunk splitIntoNals s
    let s ← loadNal s
    writeFragment s

/-- The next call finds no chunk. -/
def Exhausted (s : State κ) : Prop :=
  s.cChunk = none ∧ s.chunks = []

/-- Calls of `sendFrame`, one after the other. -/
def Calls (n : Nat) (s s' : State κ) : Prop :=
  Run (fun s (_ : Unit) => sendFrame splitIntoNals s) s (List.replicate n ()) s'

end Code

/-! ## One call -/

/-- The last fragment of a NAL unit, if there is one. -/
def resent : Option (List UInt8) → List (List UInt8)
  | none => []
  | some nal => [lastFragment maxWriteSize nal]

section Steps

variable {κ : Type} {split : κ → List (List UInt8)} {s s' : State κ} {nal : List UInt8}

/-- A NAL unit that an `int` can measure, and an offset that `sendFrame` can have in it. -/
structure Measured (nal : List UInt8) (off : Nat) : Prop where
  small : nal.length < 2 ^ 31
  inside : off ≤ nal.length
  whole : nal.length < maxWriteSize → off = 0

/-- What is sent next is a fragment of what is left. -/
theorem Measured.sendRange {off : Nat} (h : Measured nal off) :
    FramedSource.sendRange nal.length off =
      (off, min maxWriteSize (nal.drop off).length) := by
  have hsmall := h.small
  have hinside := h.inside
  unfold FramedSource.sendRange
  rw [List.length_drop]
  split_ifs with hlt
  · rw [h.whole hlt, Nat.sub_zero, Nat.min_eq_right (Nat.le_of_lt hlt)]
  · have hleft : ((nal.length : Int) - off).bmod (2 ^ 32) = ((nal.length - off : Nat) : Int) := by
      rw [Int.bmod_eq_of_le (by omega) (by omega)]
      omega
    simp only [hleft, Prod.mk.injEq, true_and]
    split_ifs with hcmp
    · rw [Int.emod_eq_of_lt (by omega) (by omega), Int.toNat_natCast]
      omega
    · omega

/-- The state after a fragment that is not the last of its NAL unit. -/
def State.deliver (s : State κ) (nal : List UInt8) : State κ :=
  { s with
    sent := s.sent ++ [(nal.drop s.cNalOff).take maxWriteSize]
    cNalOff := s.cNalOff + maxWriteSize }

/-- A call of `sendFrame` with a NAL unit loaded. -/
theorem writeFragment_eq (hnal : s.cNal = some nal) (h : Measured nal s.cNalOff) :
    writeFragment s =
      if (nal.drop s.cNalOff).length ≤ maxWriteSize then
        let s := { s with sent := s.sent ++ [nal.drop s.cNalOff] }
        some (if s.nals = [] then { s with cChunk := none, nCalls := s.nCalls + 1 }
          else { s with cNal := none })
      else some (s.deliver nal) := by
  have hinside := h.inside
  have hlen : (nal.drop s.cNalOff).length = nal.length - s.cNalOff := List.length_drop
  simp only [writeFragment, hnal, h.sendRange]
  rw [if_neg (by omega), ← List.take_eq_take_min]
  have hfully : nal.length ≤ s.cNalOff + min maxWriteSize (nal.drop s.cNalOff).length ↔
      (nal.drop s.cNalOff).length ≤ maxWriteSize := by omega
  simp only [hfully, decide_eq_true_eq]
  by_cases hle : (nal.drop s.cNalOff).length ≤ maxWriteSize
  · rw [List.take_of_length_le hle]
    by_cases hnals : s.nals = []
    · simp only [hle, hnals, true_and, if_true]
    · simp only [hle, hnals, and_false, not_true, if_true, if_false]
  · have hmin : min maxWriteSize (nal.drop s.cNalOff).length = maxWriteSize := by omega
    simp only [hle, hmin, false_and, not_false_iff, if_true, if_false, State.deliver, hnal]

/-- What a call leaves as it is. -/
theorem sendFrame_frame (hs : sendFrame split s = some s') :
    s'.len = s.len ∧ s.sent <+: s'.sent := by
  unfold sendFrame at hs
  split_ifs at hs
  · cases hs
    exact ⟨rfl, List.prefix_append _ _⟩
  · obtain ⟨s₁, hload, hs⟩ := Option.bind_eq_some_iff.mp hs
    obtain ⟨s₂, hnal, hs⟩ := Option.bind_eq_some_iff.mp hs
    have h₁ : s₁.len = s.len ∧ s₁.sent = s.sent := by
      unfold loadChunk at hload
      split at hload <;> cases hload <;> exact ⟨rfl, rfl⟩
    have h₂ : s₂.len = s₁.len ∧ s₂.sent = s₁.sent := by
      unfold loadNal at hnal
      split at hnal <;> cases hnal <;> exact ⟨rfl, rfl⟩
    rw [← h₁.1, ← h₁.2, ← h₂.1, ← h₂.2]
    unfold writeFragment at hs
    split at hs
    · cases hs
    · dsimp only at hs
      split_ifs at hs <;> cases hs <;> exact ⟨rfl, List.prefix_append _ _⟩

/-! ## Calls -/

/-- Between two chunks, the first of which has ended with the NAL unit `last`. -/
structure Between (s : State κ) (last : Option (List UInt8)) : Prop where
  chunk : s.cChunk = none
  nals : s.nals = []
  nal : match last with
    | none => s.cNal = none
    | some nal => s.cNal = some nal ∧ Measured nal s.cNalOff ∧
        nal.drop s.cNalOff = lastFragment maxWriteSize nal

theorem calls_succ {n : Nat} :
    Calls split (n + 1) s s' ↔ ∃ mid, sendFrame split s = some mid ∧ Calls split n mid s' :=
  run_cons

theorem Calls.trans {n m : Nat} {mid : State κ} (h : Calls split n s mid)
    (h' : Calls split m mid s') : Calls split (n + m) s s' := by
  rw [Calls, List.replicate_add]
  exact run_append.mpr ⟨mid, h, h'⟩

theorem sendFrame_started (s : State κ) (hlen : s.len ≠ 0) :
    sendFrame split s = (loadChunk split s).bind fun s => (loadNal s).bind writeFragment :=
  if_neg fun h => hlen h.1

/-- A call with a chunk and a NAL unit loaded. -/
theorem sendFrame_loaded (hlen : s.len ≠ 0) {c : κ} (hchunk : s.cChunk = some c)
    (hnal : s.cNal = some nal) : sendFrame split s = writeFragment s := by
  rw [sendFrame_started s hlen]
  simp [loadChunk, loadNal, hchunk, hnal]

/-- The state with a chunk loaded and split. -/
def State.loaded (s : State κ) (c : κ) (cs : List κ) (ns : List (List UInt8)) : State κ :=
  { s with chunks := cs, cChunk := some c, nals := ns }

/-- A call without a chunk goes on as if the next one was loaded. -/
theorem sendFrame_loadChunk (hlen : s.len ≠ 0) {c : κ} {cs : List κ} (hchunk : s.cChunk = none)
    (hchunks : s.chunks = c :: cs) :
    sendFrame split s = sendFrame split (s.loaded c cs (s.nals ++ split c)) := by
  rw [sendFrame_started s hlen]
  refine Eq.trans ?_ (sendFrame_started _ ?_).symm
  · simp [loadChunk, hchunk, hchunks, State.loaded]
  · exact hlen

/-- A call without a NAL unit goes on as if the next one was loaded. -/
theorem sendFrame_loadNal (hlen : s.len ≠ 0) {c : κ} {ns : List (List UInt8)}
    (hchunk : s.cChunk = some c) (hnal : s.cNal = none) (hnals : s.nals = nal :: ns) :
    sendFrame split s =
      sendFrame split { s with nals := ns, cNal := some nal, cNalOff := 0 } := by
  rw [sendFrame_started s hlen]
  refine Eq.trans ?_ (sendFrame_started _ ?_).symm
  · simp [loadChunk, loadNal, hchunk, hnal, hnals]
  · exact hlen

theorem calls_succ_congr {n : Nat} {t : State κ} (h : sendFrame split s = sendFrame split t) :
    Calls split (n + 1) s s' ↔ Calls split (n + 1) t s' := by
  rw [calls_succ, calls_succ, h]

/-- The current NAL unit is sent to its end.  If it is the last of its chunk, it stays the
current one, and its last fragment the next to be sent. -/
theorem calls_nal (hlen : s.len ≠ 0) {c : κ} (hchunk : s.cChunk = some c)
    (hnal : s.cNal = some nal) (h : Measured nal s.cNalOff) :
    ∃ n s', Calls split (n + 1) s s' ∧ s'.len = s.len ∧ s'.chunks = s.chunks ∧
      s'.nals = s.nals ∧
      s'.sent = s.sent ++ fragments maxWriteSize (nal.drop s.cNalOff) ∧
      (s.nals ≠ [] → s'.cChunk = some c ∧ s'.cNal = none) ∧
      (s.nals = [] → s'.cChunk = none ∧ s'.cNal = some nal ∧ Measured nal s'.cNalOff ∧
        nal.drop s'.cNalOff = lastFragment maxWriteSize (nal.drop s.cNalOff)) := by
  -- induction on what is left of the NAL unit
  induction hk : nal.length - s.cNalOff using Nat.strongRecOn generalizing s with
  | _ k ih =>
    have hcall : sendFrame split s = _ :=
      (sendFrame_loaded hlen hchunk hnal).trans (writeFragment_eq hnal h)
    by_cases hle : (nal.drop s.cNalOff).length ≤ maxWriteSize
    · simp only [if_pos hle] at hcall
      refine ⟨0, _, calls_succ.mpr ⟨_, hcall, run_nil.mpr rfl⟩, ?_⟩
      rw [fragments_of_le hle, lastFragment_of_le hle]
      split_ifs with hnals
      · simp [hnal, hnals, h]
      · simp [hchunk, hnals]
    · simp only [if_neg hle] at hcall
      have hlt : maxWriteSize < (nal.drop s.cNalOff).length := Nat.lt_of_not_le hle
      have hlen' : (nal.drop s.cNalOff).length = nal.length - s.cNalOff := List.length_drop
      have hmax : 0 < maxWriteSize := by decide
      have hnext : Measured nal (s.cNalOff + maxWriteSize) :=
        ⟨h.small, by omega, fun hshort => by omega⟩
      have hless : nal.length - (s.deliver nal).cNalOff < k := by
        change nal.length - (s.cNalOff + maxWriteSize) < k
        omega
      obtain ⟨n, s', hcalls, hlens, hchunks, hnals, hsent, hmore, hlast⟩ :=
        @ih _ hless (s.deliver nal) hlen hchunk hnal hnext rfl
      refine ⟨n + 1, s', calls_succ.mpr ⟨_, hcall, hcalls⟩, hlens, hchunks, hnals, ?_, hmore, ?_⟩
      · rw [hsent, fragments_of_lt hmax hlt, List.drop_drop, State.deliver, List.append_assoc]
        rfl
      · intro hnone
        rw [lastFragment_of_lt hmax hlt, List.drop_drop]
        exact hlast hnone

/-- The NAL units left of the current chunk are sent one after the other. -/
theorem calls_nals (hlen : s.len ≠ 0) {c : κ} (hchunk : s.cChunk = some c)
    (hnal : s.cNal = none) {ns : List (List UInt8)} (hnals : s.nals = ns) (hne : ns ≠ [])
    (hsmall : ∀ n ∈ ns, n.length < 2 ^ 31) :
    ∃ n s', Calls split (n + 1) s s' ∧ s'.len = s.len ∧ s'.chunks = s.chunks ∧
      s'.sent = s.sent ++ ns.flatMap (fragments maxWriteSize) ∧
      ∃ last, ns.getLast? = some last ∧ Between s' (some last) := by
  induction ns generalizing s with
  | nil => exact absurd rfl hne
  | cons nal ns ih =>
    have hload : sendFrame split s = _ := sendFrame_loadNal hlen hchunk hnal hnals
    have hmeasured : Measured nal 0 := ⟨hsmall nal List.mem_cons_self, Nat.zero_le _, fun _ => rfl⟩
    obtain ⟨n, s', hcalls, hlen', hchunks, hnals', hsent, hmore, hlast⟩ :=
      @calls_nal κ split { s with nals := ns, cNal := some nal, cNalOff := 0 } nal hlen c hchunk
        rfl hmeasured
    have hsends := (calls_succ_congr hload).mpr hcalls
    rw [List.drop_zero] at hsent hlast
    by_cases hns : ns = []
    · subst hns
      refine ⟨n, s', hsends, hlen', hchunks, ?_, nal, rfl, ?_⟩
      · rw [hsent, List.flatMap_singleton]
      · obtain ⟨hnone, hsome, hmeasured', hdrop⟩ := hlast rfl
        exact ⟨hnone, hnals', hsome, hmeasured', hdrop⟩
    · obtain ⟨hchunk', hnone⟩ := hmore hns
      obtain ⟨m, s'', hcalls', hlen'', hchunks', hsent', last, hlast', hbetween⟩ :=
        ih (by rw [hlen']; exact hlen) hchunk' hnone hnals' hns
          fun n hn => hsmall n (List.mem_cons_of_mem _ hn)
      refine ⟨n + (m + 1), s'', ?_, hlen''.trans hlen', hchunks'.trans hchunks, ?_, last, ?_,
        hbetween⟩
      · rw [Nat.add_right_comm]
        exact hsends.trans hcalls'
      · rw [hsent', hsent, List.flatMap_cons, List.append_assoc]
      · rw [List.getLast?_cons, hlast']
        rfl

/-- The next chunk is sent, behind the last fragment of the chunk before it, if any. -/
theorem calls_chunk (hlen : s.len ≠ 0) {last : Option (List UInt8)} (h : Between s last)
    {c : κ} {cs : List κ} (hchunks : s.chunks = c :: cs) (hne : split c ≠ [])
    (hsmall : ∀ n ∈ split c, n.length < 2 ^ 31) :
    ∃ n s', Calls split (n + 1) s s' ∧ s'.len = s.len ∧ s'.chunks = cs ∧
      s'.sent = s.sent ++ (resent last ++ (split c).flatMap (fragments maxWriteSize)) ∧
      Between s' (split c).getLast? := by
  have hload : sendFrame split s = _ := sendFrame_loadChunk hlen h.chunk hchunks
  rw [h.nals, List.nil_append] at hload
  cases last with
  | none =>
    obtain ⟨n, s', hcalls, hlen', hchunks', hsent, nal, hlast, hbetween⟩ :=
      @calls_nals κ split (s.loaded c cs (split c)) hlen c rfl
        h.nal _ rfl hne hsmall
    exact ⟨n, s', (calls_succ_congr hload).mpr hcalls, hlen', hchunks', hsent, hlast ▸ hbetween⟩
  | some nal =>
    -- the last NAL unit of the chunk before is still the current one
    obtain ⟨hnal, hmeasured, hdrop⟩ := h.nal
    have hle : (nal.drop s.cNalOff).length ≤ maxWriteSize := by
      rw [hdrop]
      exact length_le_of_mem_fragments (by decide) lastFragment_mem
    have hcall : sendFrame split s = some { s.loaded c cs (split c) with
        sent := s.sent ++ [nal.drop s.cNalOff], cNal := none } := by
      have hstep := @sendFrame_loaded κ split (s.loaded c cs (split c)) nal hlen c rfl hnal
      have hwrite := @writeFragment_eq κ (s.loaded c cs (split c)) nal hnal hmeasured
      rw [hload, hstep, hwrite]
      exact (if_pos hle).trans (congrArg some (if_neg hne))
    obtain ⟨n, s', hcalls, hlen', hchunks', hsent, nal', hlast, hbetween⟩ :=
      @calls_nals κ split { s.loaded c cs (split c) with
          sent := s.sent ++ [nal.drop s.cNalOff], cNal := none } hlen c rfl rfl _ rfl hne hsmall
    refine ⟨n + 1, s', calls_succ.mpr ⟨_, hcall, hcalls⟩, hlen', hchunks', ?_, hlast ▸ hbetween⟩
    rw [hsent, hdrop, List.append_assoc]
    rfl

/-- The buffers that are delivered for chunks behind one that has ended with `last`. -/
def delivered (split : κ → List (List UInt8)) : Option (List UInt8) → List κ → List (List UInt8)
  | _, [] => []
  | last, c :: cs =>
    resent last ++ (split c).flatMap (fragments maxWriteSize) ++
      delivered split (split c).getLast? cs

theorem delivered_cons (last : Option (List UInt8)) (c : κ) (cs : List κ) :
    delivered split last (c :: cs) =
      resent last ++ (split c).flatMap (fragments maxWriteSize) ++
        delivered split (split c).getLast? cs := rfl

/-- The calls send all chunks and end when they are exhausted. -/
theorem calls_chunks (hlen : s.len ≠ 0) {last : Option (List UInt8)} (h : Between s last)
    {cs : List κ} (hchunks : s.chunks = cs) (hne : ∀ c ∈ cs, split c ≠ [])
    (hsmall : ∀ c ∈ cs, ∀ n ∈ split c, n.length < 2 ^ 31) :
    ∃ n s', Calls split n s s' ∧ Exhausted s' ∧ s'.sent = s.sent ++ delivered split last cs := by
  induction cs generalizing s last with
  | nil => exact ⟨0, s, run_nil.mpr rfl, ⟨h.chunk, hchunks⟩, (List.append_nil _).symm⟩
  | cons c cs ih =>
    obtain ⟨hc, hcs⟩ := List.forall_mem_cons.mp hne
    obtain ⟨hsmallc, hsmallcs⟩ := List.forall_mem_cons.mp hsmall
    obtain ⟨n, s', hcalls, hlen', hchunks', hsent, hbetween⟩ :=
      calls_chunk hlen h hchunks hc hsmallc
    obtain ⟨m, s'', hcalls', hexhausted, hsent'⟩ :=
      ih (by rw [hlen']; exact hlen) hbetween hchunks' hcs hsmallcs
    refine ⟨n + 1 + m, s'', hcalls.trans hcalls', hexhausted, ?_⟩
    rw [hsent', hsent, delivered_cons, List.append_assoc]

/-! ## What is delivered -/

theorem delivered_le_maxWriteSize {last : Option (List UInt8)} {cs : List κ} :
    ∀ b ∈ delivered split last cs, b.length ≤ maxWriteSize := by
  induction cs generalizing last with
  | nil => exact fun b hb => absurd hb List.not_mem_nil
  | cons c cs ih =>
    intro b hb
    rw [delivered_cons, List.mem_append, List.mem_append] at hb
    rcases hb with (hb | hb) | hb
    · cases last with
      | none => exact absurd hb List.not_mem_nil
      | some nal =>
        obtain rfl := List.mem_singleton.mp hb
        exact length_le_of_mem_fragments (by decide) lastFragment_mem
    · obtain ⟨n, -, hb⟩ := List.mem_flatMap.mp hb
      exact length_le_of_mem_fragments (by decide) hb
    · exact ih b hb

theorem flatten_flatMap_fragments (ns : List (List UInt8)) :
    (ns.flatMap (fragments maxWriteSize)).flatten = ns.flatten := by
  induction ns with
  | nil => rfl
  | cons n ns ih =>
    rw [List.flatMap_cons, List.flatten_append, flatten_fragments, ih, List.flatten_cons]

theorem flatten_resent_eq_nil_iff {last : Option (List UInt8)} :
    (resent last).flatten = [] ↔ ∀ nal ∈ last, nal = [] := by
  cases last with
  | none => simp [resent]
  | some nal => simp [resent, lastFragment_eq_nil_iff (show 0 < maxWriteSize by decide)]

/-- Nothing is left out. -/
theorem length_le_delivered {last : Option (List UInt8)} {cs : List κ} :
    (cs.flatMap split).flatten.length ≤ (delivered split last cs).flatten.length := by
  induction cs generalizing last with
  | nil => exact Nat.zero_le _
  | cons c cs ih =>
    have hrest := @ih (split c).getLast?
    simp only [delivered_cons, List.flatMap_cons, List.flatten_append, List.length_append,
      flatten_flatMap_fragments]
    omega

/-- Nothing is sent twice if and only if what is sent again is empty. -/
theorem flatten_delivered_iff {last : Option (List UInt8)} {cs : List κ} :
    (delivered split last cs).flatten = (cs.flatMap split).flatten ↔
      (cs ≠ [] → ∀ nal ∈ last, nal = []) ∧
        ∀ c ∈ cs.dropLast, ∀ nal ∈ (split c).getLast?, nal = [] := by
  induction cs generalizing last with
  | nil => simp [delivered]
  | cons c cs ih =>
    have hrest := @length_le_delivered κ split (split c).getLast? cs
    have hsplit : (delivered split last (c :: cs)).flatten = ((c :: cs).flatMap split).flatten ↔
        (resent last).flatten = [] ∧
          (delivered split (split c).getLast? cs).flatten = (cs.flatMap split).flatten := by
      simp only [delivered_cons, List.flatMap_cons, List.flatten_append, flatten_flatMap_fragments]
      constructor
      · intro heq
        have hlen := congrArg List.length heq
        simp only [List.length_append] at hlen
        have hnil : (resent last).flatten = [] := List.length_eq_zero_iff.mp (by omega)
        rw [hnil, List.nil_append] at heq
        exact ⟨hnil, List.append_cancel_left heq⟩
      · rintro ⟨hnil, heq⟩
        rw [hnil, List.nil_append, heq]
    rw [hsplit, ih, flatten_resent_eq_nil_iff]
    cases cs with
    | nil => simp
    | cons c' cs => simp [List.dropLast_cons_of_ne_nil]

/-! ## NAL units that an `int` cannot measure -/

/-- More is left of a NAL unit than an `int` can count: of the current one, or of one that
is still to come. -/
def Overlong (split : κ → List (List UInt8)) (s : State κ) : Prop :=
  (s.cChunk ≠ none ∧ ∃ nal, s.cNal = some nal ∧ s.cNalOff + 2 ^ 31 ≤ nal.length) ∨
    (s.cChunk ≠ none ∧ ∃ n ∈ s.nals, 2 ^ 31 ≤ n.length) ∨
    ∃ c ∈ s.chunks, ∃ n ∈ split c, 2 ^ 31 ≤ n.length

theorem Overlong.not_exhausted (h : Overlong split s) : ¬ Exhausted s := by
  rintro ⟨hchunk, hchunks⟩
  rcases h with ⟨hne, -⟩ | ⟨hne, -⟩ | ⟨c, hc, -⟩
  · exact hne hchunk
  · exact hne hchunk
  · rw [hchunks] at hc
    exact List.not_mem_nil hc

theorem Overlong.loadChunk (h : Overlong split s) (hs : loadChunk split s = some s') :
    Overlong split s' ∧ s'.cChunk ≠ none := by
  unfold FramedSource.loadChunk at hs
  split at hs
  · next hchunk =>
    cases hs
    exact ⟨h, by rw [hchunk]; exact Option.some_ne_none _⟩
  · cases hs
  · next c cs hchunk hchunks =>
    cases hs
    refine ⟨?_, Option.some_ne_none _⟩
    rcases h with ⟨hne, -⟩ | ⟨hne, -⟩ | ⟨c', hc', n, hn, hlong⟩
    · exact absurd hchunk hne
    · exact absurd hchunk hne
    · rw [hchunks] at hc'
      rcases List.mem_cons.mp hc' with rfl | hc'
      · exact .inr (.inl ⟨Option.some_ne_none _, n, List.mem_append_right _ hn, hlong⟩)
      · exact .inr (.inr ⟨c', hc', n, hn, hlong⟩)

theorem Overlong.loadNal (h : Overlong split s) (hchunk : s.cChunk ≠ none)
    (hs : loadNal s = some s') :
    Overlong split s' ∧ s'.cChunk ≠ none := by
  unfold FramedSource.loadNal at hs
  split at hs
  · cases hs
    exact ⟨h, hchunk⟩
  · cases hs
  · next ninfo ns hnal hnals =>
    cases hs
    refine ⟨?_, hchunk⟩
    rcases h with ⟨-, nal, hsome, -⟩ | ⟨-, n, hn, hlong⟩ | hlater
    · rw [hnal] at hsome
      cases hsome
    · rw [hnals] at hn
      rcases List.mem_cons.mp hn with rfl | hn
      · exact .inl ⟨hchunk, n, rfl, by rw [Nat.zero_add]; exact hlong⟩
      · exact .inr (.inl ⟨hchunk, n, hn, hlong⟩)
    · exact .inr (.inr hlater)

/-- What is left stays more than an `int` can count, or the buffer is too long. -/
theorem sendRange_overlong {len off : Nat} (h : off + 2 ^ 31 ≤ len) :
    (sendRange len off).1 = off ∧
      (maxWriteSize < (sendRange len off).2 ∨ off + (sendRange len off).2 + 2 ^ 31 ≤ len) := by
  unfold sendRange maxWriteSize
  rw [if_neg (by omega)]
  refine ⟨rfl, ?_⟩
  rw [Int.bmod_def]
  dsimp only
  split_ifs <;> omega

/-- A fragment that is sent leaves more than an `int` can count, or is too long. -/
theorem Overlong.writeFragment (h : Overlong split s) (hchunk : s.cChunk ≠ none)
    (hs : writeFragment s = some s') :
    Overlong split s' ∨ ∃ b ∈ s'.sent, maxWriteSize < b.length := by
  unfold FramedSource.writeFragment at hs
  cases hnal : s.cNal with
  | none => simp [hnal] at hs
  | some nal =>
    simp only [hnal] at hs
    rw [Option.ite_none_left_eq_some] at hs
    obtain ⟨hbehind, hs⟩ := hs
    set sendOff := (sendRange nal.length s.cNalOff).1 with hoff
    set sendLen := (sendRange nal.length s.cNalOff).2 with hlen
    have hbuffer : ((nal.drop sendOff).take sendLen).length = sendLen := by
      rw [List.length_take, List.length_drop]
      omega
    have hcases : maxWriteSize < sendLen ∨ s.cNalOff + sendLen + 2 ^ 31 ≤ nal.length ∨
        (∃ n ∈ s.nals, 2 ^ 31 ≤ n.length) ∨ ∃ c ∈ s.chunks, ∃ n ∈ split c, 2 ^ 31 ≤ n.length := by
      rcases h with ⟨-, nal', hnal', hlong⟩ | ⟨-, hlong⟩ | hlater
      · obtain rfl := Option.some.inj (hnal.symm.trans hnal')
        exact (sendRange_overlong hlong).2.imp_right .inl
      · exact .inr (.inr (.inl hlong))
      · exact .inr (.inr (.inr hlater))
    rcases hcases with hbig | hleft | ⟨n, hn, hlong⟩ | hlater
    · refine .inr ⟨_, ?_, hbuffer.symm ▸ hbig⟩
      split_ifs at hs <;> cases hs <;> exact List.mem_append_right _ (List.mem_singleton_self _)
    · have hnot : ¬ nal.length ≤ s.cNalOff + sendLen := by omega
      simp only [hnot, decide_false, Bool.false_eq_true, false_and, not_false_iff, if_true,
        if_false] at hs
      cases hs
      exact .inl (.inl ⟨hchunk, nal, rfl, by omega⟩)
    · have hne : s.nals ≠ [] := List.ne_nil_of_mem hn
      simp only [hne, and_false, if_false] at hs
      split_ifs at hs <;> cases hs <;> exact .inl (.inr (.inl ⟨hchunk, n, hn, hlong⟩))
    · split_ifs at hs <;> cases hs <;> exact .inl (.inr (.inr hlater))

/-- A call leaves a NAL unit that is too long, or a buffer that is. -/
theorem Overlong.sendFrame (h : Overlong split s) (hs : sendFrame split s = some s') :
    Overlong split s' ∨ ∃ b ∈ s'.sent, maxWriteSize < b.length := by
  unfold FramedSource.sendFrame at hs
  split_ifs at hs with hstart
  · cases hs
    exact .inl h
  · obtain ⟨s₁, hload, hs⟩ := Option.bind_eq_some_iff.mp hs
    obtain ⟨s₂, hnal, hs⟩ := Option.bind_eq_some_iff.mp hs
    obtain ⟨h₁, hchunk₁⟩ := h.loadChunk hload
    obtain ⟨h₂, hchunk₂⟩ := h₁.loadNal hchunk₁ hnal
    exact h₂.writeFragment hchunk₂ hs

/-! ## Every byte once -/

/-- The calls end in one state. -/
theorem Calls.unique {n m : Nat} {t t' : State κ} (hlen : s.len ≠ 0) (h : Calls split n s t)
    (h' : Calls split m s t') (ht : Exhausted t) (ht' : Exhausted t') : t = t' := by
  have hend : ∀ {s : State κ}, s.len ≠ 0 → Exhausted s → sendFrame split s = none := by
    intro s hlen hs
    rw [sendFrame_started s hlen]
    simp [loadChunk, hs.1, hs.2]
  induction n generalizing s m with
  | zero =>
    obtain rfl := run_nil.mp h
    cases m with
    | zero => exact run_nil.mp h'
    | succ m =>
      obtain ⟨mid, hmid, -⟩ := calls_succ.mp h'
      rw [hend hlen ht] at hmid
      cases hmid
  | succ n ih =>
    obtain ⟨mid, hmid, hrest⟩ := calls_succ.mp h
    cases m with
    | zero =>
      obtain rfl := run_nil.mp h'
      rw [hend hlen ht'] at hmid
      cases hmid
    | succ m =>
      obtain ⟨mid', hmid', hrest'⟩ := calls_succ.mp h'
      obtain rfl := Option.some.inj (hmid.symm.trans hmid')
      exact ih (by rw [(sendFrame_frame hmid).1]; exact hlen) hrest hrest'

/-- The calls exhaust the chunks, each call delivers at most `MAX_WRITE_SIZE` bytes, and the
buffers make up all NAL units of all chunks. -/
def DeliversAll (split : κ → List (List UInt8)) (len : Int) (chunks : List κ) : Prop :=
  ∃ n s, Calls split n { len, chunks } s ∧ Exhausted s ∧
    s.sent.flatten = (chunks.flatMap split).flatten ∧ ∀ b ∈ s.sent, b.length ≤ maxWriteSize

/-- Every byte of every NAL unit is delivered once if and only if the NAL units are shorter
than an `int` can count and each chunk but the last ends with an empty NAL unit. -/
theorem sendFrame_deliversAll_iff {len : Int} (hlen : len ≠ 0) {chunks : List κ}
    (hne : ∀ c ∈ chunks, split c ≠ []) :
    DeliversAll split len chunks ↔ (∀ c ∈ chunks, ∀ n ∈ split c, n.length < 2 ^ 31) ∧
      ∀ c ∈ chunks.dropLast, ∀ nal ∈ (split c).getLast?, nal = [] := by
  have hinit : Between ({ len, chunks } : State κ) none := ⟨rfl, rfl, rfl⟩
  by_cases hsmall : ∀ c ∈ chunks, ∀ n ∈ split c, n.length < 2 ^ 31
  · obtain ⟨n, s, hcalls, hexhausted, hsent⟩ :=
      @calls_chunks κ split { len, chunks } hlen none hinit chunks rfl hne hsmall
    rw [List.nil_append] at hsent
    have hiff := @flatten_delivered_iff κ split none chunks
    simp only [Option.not_mem_none, false_imp_iff, implies_true, true_and] at hiff
    rw [and_iff_right hsmall, ← hiff]
    constructor
    · rintro ⟨m, s', hcalls', hexhausted', hflat, -⟩
      rw [← hsent, hcalls.unique hlen hcalls' hexhausted hexhausted', hflat]
    · intro hflat
      refine ⟨n, s, hcalls, hexhausted, by rw [hsent, hflat], ?_⟩
      rw [hsent]
      exact delivered_le_maxWriteSize
  · refine iff_of_false ?_ fun h => hsmall h.1
    rintro ⟨n, s', hcalls, hexhausted, -, hmax⟩
    have hover : Overlong split ({ len, chunks } : State κ) := by
      simp only [not_forall, Nat.not_lt, exists_prop] at hsmall
      exact .inr (.inr hsmall)
    have hkeep := hcalls.preserves_of_everyStep
      (P := fun t => Overlong split t ∨ ∃ b ∈ t.sent, maxWriteSize < b.length) (.inl hover)
      (everyStep_of_forall_mem (P := fun _ => True) fun _ _ => trivial) ?_
    · rcases hkeep with hkeep | ⟨b, hb, hlong⟩
      · exact hkeep.not_exhausted hexhausted
      · exact absurd (hmax b hb) (Nat.not_le.mpr hlong)
    · rintro - t - t' (ht | ⟨b, hb, hlong⟩) - hs
      · exact ht.sendFrame hs
      · exact .inr ⟨b, (sendFrame_frame hs).2.subset hb, hlong⟩

end Steps

/-- Two chunks, the first of which ends with an empty NAL unit. -/
theorem sendFrame_deliversAll_two : DeliversAll id 19 [[[1, 2], []], [[3]]] :=
  (sendFrame_deliversAll_iff (by decide) (by decide)).mpr ⟨by decide, by decide⟩

/-- The NAL unit of the first of two chunks is delivered again before that of the second. -/
theorem sendFrame_resends :
    Calls id 3 { len := 18, chunks := [[[1]], [[2]]] }
        { len := 18, chunks := [], cNal := some [2], nCalls := 2, sent := [[1], [1], [2]] } ∧
      ¬ DeliversAll id 18 [[[1]], [[2]]] := by
  have hcalls : Calls id 3 { len := 18, chunks := [[[1]], [[2]]] }
      { len := 18, chunks := [], cNal := some [2], nCalls := 2, sent := [[1], [1], [2]] } := by
    rfl
  refine ⟨hcalls, ?_⟩
  rintro ⟨n, s, hcalls', hexhausted, hflat, -⟩
  rw [← hcalls.unique (by decide) hcalls' ⟨rfl, rfl⟩ hexhausted] at hflat
  exact absurd hflat (by decide)

end RtpBenchmarks.Live555.FramedSource
