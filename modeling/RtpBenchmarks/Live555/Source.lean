import RtpBenchmarks.Foundation.Runs
import RtpBenchmarks.Foundation.Scalars
import RtpBenchmarks.Live555.Nals

set_option autoImplicit false

/-!
# Live555 sender (`live555/source.cc`)

Each call of `deliverFrame` hands the next NAL unit of the file to the RTP sink.  When
`find_next_nal` returns a null pointer or the size zero it takes that for the end of the
file, writes the result and exits.

Two start codes with nothing between them make a NAL unit of the size zero, and the
program ends there.
-/

namespace RtpBenchmarks.Live555.Source

open RtpBenchmarks.Foundation

/-! ## The code -/

/-- What a call of `doGetNextFrame` reads from the clock: at its start, before it may sleep,
when it goes on and at its end. -/
structure Times where
  start : Int
  now : Int
  awake : Int
  done : Int
  deriving DecidableEq, Repr

/-- A NAL unit that is handed on: where it begins and its size, what is copied to `fTo`, for
how many microseconds the call sleeps, and when it goes on. -/
structure Delivery where
  nal : Nat × Nat
  fTo : List UInt8
  sleep : Nat
  awake : Int
  deriving DecidableEq, Repr

/-- What is written to the result file. -/
structure Result where
  bytes : Nat
  diff : Nat
  deriving DecidableEq, Repr

/-- The globals, the NAL units handed on, and what is written before the exit. -/
structure State where
  nal : NalState := {}
  bytes : Nat := 0
  current : Nat := 0
  initialized : Bool := false
  sTmr : Int := 0
  eTmr : Int := 0
  delivered : List Delivery := []
  exited : Option Result := none
  deriving DecidableEq, Repr

/-- `write_send_results_to_file` and `exit`. -/
def State.finish (s : State) : State :=
  { s with exited := some { bytes := s.bytes, diff := milliseconds (s.eTmr - s.sTmr) } }

/-- `H265FramedSource::deliverFrame`; `period` is computed from the frame rate. -/
def deliverFrame (period base : Nat) (mem : List UInt8) (s : State) (awaitingData : Bool)
    (fMaxSize : UInt32) (t : Times) : Except MemFault State :=
  if awaitingData then do
    let (nalState, size, data) ← findNextNal base mem s.nal
    let s := { s with nal := nalState }
    match data with
    | none => return s.finish
    | some data =>
      if size = 0 then
        return s.finish
      let runtime := microseconds (t.now - s.sTmr)
      let due := s.current * period % 2 ^ 64
      let sleep := if runtime < due then due - runtime else 0
      let s := { s with current := if 1500 < size then (s.current + 1) % 2 ^ 64 else s.current }
      let newFrameSize := size % 2 ^ 32
      let s := { s with bytes := (s.bytes + newFrameSize) % 2 ^ 64 }
      let fFrameSize := if fMaxSize.toNat < newFrameSize then fMaxSize.toNat else newFrameSize
      let fTo ← loadBytes mem data fFrameSize
      return { s with
        delivered := s.delivered ++ [{ nal := (data, size), fTo, sleep, awake := t.awake }]
        eTmr := t.done }
  else
    return s

/-- `H265FramedSource::doGetNextFrame`. -/
def doGetNextFrame (period base : Nat) (mem : List UInt8) (s : State) (awaitingData : Bool)
    (fMaxSize : UInt32) (t : Times) : Except MemFault State :=
  let s := if s.initialized then s else { s with sTmr := t.start, initialized := true }
  deliverFrame period base mem s awaitingData fMaxSize t

/-- A call of `doGetNextFrame`. -/
structure Call where
  awaitingData : Bool
  fMaxSize : UInt32
  times : Times
  deriving DecidableEq, Repr

/-- A call in the running process. -/
def step (period base : Nat) (mem : List UInt8) (s : State) (c : Call) : Option State :=
  if s.exited.isSome then none
  else
    match doGetNextFrame period base mem s c.awaitingData c.fMaxSize c.times with
    | .error _ => none
    | .ok s => some s

/-! ## NAL units -/

/-- The NAL units of a file: where each begins, and its size. -/
def nalUnits (mem : List UInt8) : List (Nat × Nat) :=
  (annexBSlices mem).map fun s => (s.1, s.2 - s.1)

example : nalUnits [0, 0, 1, 5, 0, 0, 1, 0, 0, 1, 7] = [(3, 1), (7, 0), (10, 1)] := by decide

/-- The calls that are to come find the NAL units `units`. -/
def Ahead (base : Nat) (mem : List UInt8) (st : NalState) (units : List (Nat × Nat)) : Prop :=
  ∃ slices, st.Ahead 0 base mem slices ∧ units = slices.map fun s => (s.1, s.2 - s.1)

/-- How far the program has come: the NAL units handed on are not empty and the first of the
file; the next calls find the others; and it exits only where none or an empty one is
next. -/
structure Progress (base : Nat) (mem : List UInt8) (s : State) (rest : List (Nat × Nat)) :
    Prop where
  units : s.delivered.map (·.nal) ++ rest = nalUnits mem
  nonempty : ∀ u ∈ s.delivered.map (·.nal), u.2 ≠ 0
  bytes : s.bytes = ((s.delivered.map (·.nal)).map (·.2 % 2 ^ 32)).sum % 2 ^ 64
  next : s.exited = none → Ahead base mem s.nal rest
  exited : ∀ r, s.exited = some r → r.bytes = s.bytes ∧ ∀ u ∈ rest.head?, u.2 = 0

theorem progress_initial (base : Nat) (mem : List UInt8) :
    Progress base mem {} (nalUnits mem) :=
  ⟨rfl, by simp, rfl, fun _ => ⟨_, NalState.ahead_init 0 base mem, rfl⟩, by simp⟩

/-! ## Steps -/

section Steps

variable {base : Nat} {mem : List UInt8} {st : NalState} {u : Nat × Nat}
  {units rest : List (Nat × Nat)} {s s' : State}

theorem nalUnits_bounds (hu : u ∈ nalUnits mem) : u.1 + u.2 ≤ mem.length := by
  obtain ⟨slice, hslice, rfl⟩ := List.mem_map.mp hu
  obtain ⟨_, hle, hlen⟩ := (slicesBehind_ordered (codesFrom_startCodes mem)).1 slice hslice
  dsimp only
  omega

theorem Ahead.nil (h : Ahead base mem st []) :
    ∃ st', findNextNal base mem st = .ok (st', 0, none) := by
  obtain ⟨slices, hahead, hnil⟩ := h
  obtain rfl := List.map_eq_nil_iff.mp hnil.symm
  obtain ⟨st', hcall, -⟩ := hahead.nil
  exact ⟨st', hcall⟩

theorem Ahead.cons (h : Ahead base mem st (u :: units)) :
    ∃ st', findNextNal base mem st = .ok (st', u.2, some u.1) ∧ Ahead base mem st' units := by
  obtain ⟨slices, hahead, hunits⟩ := h
  cases slices with
  | nil => cases hunits
  | cons slice slices =>
    obtain ⟨rfl, rfl⟩ := List.cons.inj hunits
    obtain ⟨st', hcall, hahead'⟩ := hahead.cons
    exact ⟨st', hcall, slices, hahead', rfl⟩

/-- The exit, where no NAL unit or an empty one is next. -/
theorem Progress.finish (h : Progress base mem s rest) (hnext : ∀ u ∈ rest.head?, u.2 = 0)
    (st' : NalState) : Progress base mem ({ s with nal := st' } : State).finish rest where
  units := h.units
  nonempty := h.nonempty
  bytes := h.bytes
  next := by rintro ⟨⟩
  exited := by
    rintro r ⟨⟩
    exact ⟨rfl, hnext⟩

/-- `deliverFrame` does not fault and goes on in the file. -/
theorem Progress.deliverFrame (h : Progress base mem s rest) (hrun : s.exited = none)
    (period : Nat) (awaitingData : Bool) (fMaxSize : UInt32) (t : Times) :
    ∃ s', deliverFrame period base mem s awaitingData fMaxSize t = .ok s' ∧
      ∃ rest', Progress base mem s' rest' := by
  unfold Source.deliverFrame
  cases awaitingData with
  | false => exact ⟨s, rfl, rest, h⟩
  | true =>
    cases rest with
    | nil =>
      obtain ⟨st', hcall⟩ := (h.next hrun).nil
      rw [if_pos rfl, hcall]
      exact ⟨_, rfl, [], h.finish (by simp) st'⟩
    | cons u rest =>
      obtain ⟨st', hcall, hahead⟩ := (h.next hrun).cons
      rw [if_pos rfl, hcall, ok_bind]
      by_cases hsize : u.2 = 0
      · refine ⟨({ s with nal := st' } : State).finish, ?_, u :: rest,
          h.finish (by simpa using hsize) st'⟩
        simp only [if_pos hsize, pure, Except.pure]
      · have hmem : u ∈ nalUnits mem := by
          rw [← h.units]
          simp
        have hbound := nalUnits_bounds hmem
        have hmod := Nat.mod_le u.2 (2 ^ 32)
        simp only [if_neg hsize]
        rw [loadBytes_of_le (by split_ifs <;> omega)]
        refine ⟨_, rfl, rest, ?_, ?_, ?_, fun _ => hahead, ?_⟩
        · simpa using h.units
        · simp only [List.map_append, List.map_cons, List.map_nil, List.mem_append,
            List.mem_singleton]
          rintro v (hv | rfl)
          · exact h.nonempty v hv
          · exact hsize
        · simp only [List.map_append, List.map_cons, List.map_nil, List.sum_append,
            List.sum_singleton, h.bytes]
          omega
        · intro r hr
          rw [show s.exited = some r from hr] at hrun
          cases hrun

theorem Progress.step (h : Progress base mem s rest) {period : Nat} {c : Call}
    (hstep : step period base mem s c = some s') : ∃ rest', Progress base mem s' rest' := by
  unfold Source.step at hstep
  split_ifs at hstep with hexit
  have hrun : s.exited = none := by simpa using hexit
  -- the first call only sets the clock
  have hinit : ∃ s₁, (if s.initialized then s
      else { s with sTmr := c.times.start, initialized := true }) = s₁ ∧
      s₁.exited = none ∧ Progress base mem s₁ rest := by
    refine ⟨_, rfl, ?_⟩
    split_ifs
    · exact ⟨hrun, h⟩
    · exact ⟨hrun, h.units, h.nonempty, h.bytes, h.next, h.exited⟩
  obtain ⟨s₁, hs₁, hrun₁, h₁⟩ := hinit
  obtain ⟨s₂, hcall, rest', h₂⟩ :=
    h₁.deliverFrame hrun₁ period c.awaitingData c.fMaxSize c.times
  have hcall' : doGetNextFrame period base mem s c.awaitingData c.fMaxSize c.times = .ok s₂ := by
    rw [doGetNextFrame, hs₁]
    exact hcall
  rw [hcall'] at hstep
  obtain rfl := Option.some.inj hstep
  exact ⟨rest', h₂⟩

/-- However many calls were made. -/
theorem progress_of_run {period : Nat} {calls : List Call}
    (hrun : Run (step period base mem) {} calls s) : ∃ rest, Progress base mem s rest :=
  Run.invariant (I := fun _ s => ∃ rest, Progress base mem s rest)
    ⟨_, progress_initial base mem⟩ (fun _ _ _ _ _ ⟨_, h⟩ hstep => h.step hstep) hrun

end Steps

/-! ## Complete runs -/

/-- A list cut before an element with `¬ p`, or at its end, and all before it with `p`. -/
theorem eq_filter_iff {α : Type} {p : α → Bool} {front rest : List α}
    (hfront : ∀ a ∈ front, p a = true) (hrest : ∀ a ∈ rest.head?, p a = false) :
    front = (front ++ rest).filter p ↔
      (front ++ rest).Pairwise fun a b => p a = false → p b = false := by
  have hkeep : front.filter p = front := List.filter_eq_self.mpr hfront
  rw [List.filter_append, hkeep, List.self_eq_append_right, List.filter_eq_nil_iff,
    List.pairwise_append]
  constructor
  · intro hall
    have hall' : ∀ a ∈ rest, p a = false := fun a ha => Bool.eq_false_iff.mpr (hall a ha)
    refine ⟨?_, ?_, fun _ _ b hb _ => hall' b hb⟩
    · exact List.pairwise_of_forall_mem_list fun a ha _ _ hp => by
        simp [hfront a ha] at hp
    · exact List.pairwise_of_forall_mem_list fun _ _ b hb _ => hall' b hb
  · rintro ⟨-, hpair, -⟩
    cases rest with
    | nil => simp
    | cons a rest =>
      have ha : p a = false := hrest a rfl
      have htail : ∀ b ∈ rest, p b = false := fun b hb =>
        (List.pairwise_cons.mp hpair).1 b hb ha
      simpa [ha] using htail

/-- Sizes cut to `m` and their sum cut to `n`. -/
theorem sum_mod_eq_sum_iff {m n : Nat} (sizes : List Nat) (hm : 0 < m) (hn : 0 < n) :
    (sizes.map (· % m)).sum % n = sizes.sum ↔ (∀ x ∈ sizes, x < m) ∧ sizes.sum < n := by
  have hcut : (sizes.map (· % m)).sum ≤ sizes.sum ∧
      ((sizes.map (· % m)).sum = sizes.sum ↔ ∀ x ∈ sizes, x < m) := by
    induction sizes with
    | nil => simp
    | cons x sizes ih =>
      have hx := Nat.mod_le x m
      have hlt : x % m = x ↔ x < m := Nat.mod_eq_iff_lt hm.ne'
      simp only [List.map_cons, List.sum_cons, List.forall_mem_cons, ← ih.2, ← hlt]
      omega
  have hle := Nat.mod_le (sizes.map (· % m)).sum n
  have hlt := Nat.mod_lt (sizes.map (· % m)).sum hn
  constructor
  · intro heq
    exact ⟨hcut.2.mp (by omega), by omega⟩
  · rintro ⟨hall, hsum⟩
    rw [hcut.2.mpr hall, Nat.mod_eq_of_lt hsum]

/-- The NAL units with content. -/
def nonemptyUnits (mem : List UInt8) : List (Nat × Nat) :=
  (nalUnits mem).filter fun u => 0 < u.2

/-- A run that has come to its exit has handed on all NAL units with content and counted
their bytes if and only if no NAL unit with content stands behind an empty one, none has
`2 ^ 32` bytes or more, and together they have less than `2 ^ 64`. -/
theorem source_complete_iff {period base : Nat} {mem : List UInt8} {calls : List Call}
    {s : State} {r : Result} (hrun : Run (step period base mem) {} calls s)
    (hexit : s.exited = some r) :
    (s.delivered.map (·.nal) = nonemptyUnits mem ∧
        r.bytes = ((nonemptyUnits mem).map (·.2)).sum) ↔
      (nalUnits mem).Pairwise (fun u u' => u.2 = 0 → u'.2 = 0) ∧
        (∀ u ∈ nonemptyUnits mem, u.2 < 2 ^ 32) ∧
        ((nonemptyUnits mem).map (·.2)).sum < 2 ^ 64 := by
  obtain ⟨rest, h⟩ := progress_of_run hrun
  obtain ⟨hbytes, hnext⟩ := h.exited r hexit
  have hunits : s.delivered.map (·.nal) = nonemptyUnits mem ↔
      (nalUnits mem).Pairwise (fun u u' => u.2 = 0 → u'.2 = 0) := by
    have hfront : ∀ u ∈ s.delivered.map (·.nal), decide (0 < u.2) = true := fun u hu =>
      decide_eq_true (Nat.pos_of_ne_zero (h.nonempty u hu))
    have hrest : ∀ u ∈ rest.head?, decide (0 < u.2) = false := fun u hu => by
      simp [hnext u hu]
    simpa [nonemptyUnits, h.units] using eq_filter_iff hfront hrest
  have hsum (hall : s.delivered.map (·.nal) = nonemptyUnits mem) :
      r.bytes = ((nonemptyUnits mem).map (·.2)).sum ↔
        (∀ u ∈ nonemptyUnits mem, u.2 < 2 ^ 32) ∧
          ((nonemptyUnits mem).map (·.2)).sum < 2 ^ 64 := by
    have := sum_mod_eq_sum_iff (m := 2 ^ 32) (n := 2 ^ 64) ((nonemptyUnits mem).map (·.2))
      (by decide) (by decide)
    rw [List.map_map, List.forall_mem_map] at this
    rw [hbytes, h.bytes, hall]
    exact this
  rw [← hunits]
  exact and_congr_right hsum

/-- A call with a large buffer. -/
def fetch : Call := { awaitingData := true, fMaxSize := 60000, times := ⟨0, 0, 0, 0⟩ }

/-- A file of two NAL units. -/
theorem source_complete_two :
    ∃ s r, Run (step 16666 0 [0, 0, 1, 5, 0, 0, 1, 7]) {} [fetch, fetch, fetch] s ∧
      s.exited = some r ∧
      (s.delivered.map (·.nal) = nonemptyUnits [0, 0, 1, 5, 0, 0, 1, 7] ∧
        r.bytes = ((nonemptyUnits [0, 0, 1, 5, 0, 0, 1, 7]).map (·.2)).sum) := by
  obtain ⟨s, r, hrun, hexit⟩ : ∃ s r,
      Run (step 16666 0 [0, 0, 1, 5, 0, 0, 1, 7]) {} [fetch, fetch, fetch] s ∧
        s.exited = some r :=
    ⟨_, _, run_get (by decide +kernel), rfl⟩
  exact ⟨s, r, hrun, hexit, (source_complete_iff hrun hexit).mpr (by decide)⟩

/-- Two start codes with nothing between them, and one NAL unit in front of and one behind
them: the run ends at the second of the three, with the third not handed on. -/
theorem source_stops_at_empty :
    ∃ s r, Run (step 16666 0 [0, 0, 1, 5, 0, 0, 1, 0, 0, 1, 7]) {} [fetch, fetch] s ∧
      s.exited = some r ∧ s.delivered.map (·.nal) = [(3, 1)] ∧ r.bytes = 1 ∧
      nonemptyUnits [0, 0, 1, 5, 0, 0, 1, 0, 0, 1, 7] = [(3, 1), (10, 1)] :=
  ⟨_, _, run_get (by decide +kernel), rfl, by decide⟩

end RtpBenchmarks.Live555.Source
