import RtpBenchmarks.Live555.StartCode

set_option autoImplicit false

/-!
# Live555: splitting a file into NAL units (`find_next_nal`)

`find_next_nal` keeps its position in static variables and returns one NAL unit a call.
`annexBSlices` is the split it has to produce: one slice for each start code, from
behind the code to the next one or to the end of the file, less a zero byte in front of
the next code.

The start codes of a file, taken in order, are exactly what repeated scanning finds
(`CodesFrom`); an induction over them follows the calls.
-/

namespace RtpBenchmarks.Live555

open RtpBenchmarks.Foundation

/-! ## The code -/

/-- The static variables of `find_next_nal`.  `p` is null until the file is mapped and
never changes afterwards, and `end` is the end of the mapping. -/
structure NalState where
  mapped : Bool := false
  len : Nat := 0
  nalStart : Nat := 0
  nalEnd : Nat := 0
  deriving DecidableEq, Repr, Inhabited

/-- `while (nal_start < end && !*(nal_start++));`: the cursor behind the first byte that
is not zero. -/
@[semireducible] def skipZeros (mem : List UInt8) (nalStart : Nat) : Except MemFault Nat :=
  if nalStart < mem.length then
    match loadByte mem nalStart with
    | .error f => .error f
    | .ok b => if b = 0 then skipZeros mem (nalStart + 1) else .ok (nalStart + 1)
  else .ok nalStart
termination_by mem.length - nalStart

/-- The block under `if (!p)`. -/
def mapFile (base : Nat) (mem : List UInt8) (st : NalState) : Except MemFault NalState :=
  if st.mapped then pure st
  else do
    let nalStart ← ffAvcFindStartcode base mem 0 mem.length
    pure { st with mapped := true, len := 0, nalStart }

/-- `find_next_nal`, with what is added to `len` besides the size of the NAL unit.  The
result is the returned pair of size and pointer. -/
def findNextNalWith (extra base : Nat) (mem : List UInt8) (st : NalState) :
    Except MemFault (NalState × Nat × Option Nat) := do
  let st ← mapFile base mem st
  let nalStart ← skipZeros mem st.nalStart
  if nalStart = mem.length then
    return ({ st with nalStart }, 0, none)
  let nalEnd ← ffAvcFindStartcode base mem nalStart mem.length
  return ({ st with len := st.len + extra + (nalEnd - nalStart), nalStart := nalEnd, nalEnd },
    nalEnd - nalStart, some nalStart)

/-- `find_next_nal` of `source.cc`. -/
def findNextNal : Nat → List UInt8 → NalState →
    Except MemFault (NalState × Nat × Option Nat) :=
  findNextNalWith 0

namespace LatencySender

/-- `find_next_nal` of `latency_sender.cc`. -/
def findNextNal : Nat → List UInt8 → NalState →
    Except MemFault (NalState × Nat × Option Nat) :=
  findNextNalWith 4

end LatencySender

/-- What `k` calls return, one after the other. -/
def calls (next : NalState → Except MemFault (NalState × Nat × Option Nat)) :
    Nat → NalState → Except MemFault (List (Nat × Option Nat))
  | 0, _ => pure []
  | k + 1, st => do
    let (st, ret) ← next st
    let rest ← calls next k st
    pure (ret :: rest)

/-! ## The split -/

/-- The places of all start codes, in order. -/
def startCodes (mem : List UInt8) : List Nat :=
  (List.range mem.length).filter (StartCodeAt mem ·)

/-- Where the slice behind the start code `q` ends when `q'` is the next. -/
def sliceEnd (mem : List UInt8) (q q' : Nat) : Nat :=
  if q + 3 < q' ∧ mem[q' - 1]? = some 0 then q' - 1 else q'

/-- The slices (start, end) behind each of a list of start codes. -/
def slicesBehind (mem : List UInt8) : List Nat → List (Nat × Nat)
  | [] => []
  | [q] => [(q + 3, mem.length)]
  | q :: q' :: rest => (q + 3, sliceEnd mem q q') :: slicesBehind mem (q' :: rest)

/-- The Annex-B split of a file. -/
def annexBSlices (mem : List UInt8) : List (Nat × Nat) :=
  slicesBehind mem (startCodes mem)

example : annexBSlices [9, 0, 0, 0, 1, 5, 6, 0, 0, 0, 1, 7, 0, 0, 1, 0, 0, 1] =
    [(5, 7), (11, 12), (15, 18)] := by decide

/-! ## Start codes in order -/

/-- `qs` are the start codes from `p` on, in order. -/
def CodesFrom (mem : List UInt8) (p : Nat) : List Nat → Prop
  | [] => ∀ x, p ≤ x → ¬ StartCodeAt mem x
  | q :: rest => StartCodeAt mem q ∧ p ≤ q ∧ Clear mem p q ∧ CodesFrom mem (q + 1) rest

section Codes

variable {mem : List UInt8} {p q : Nat} {qs : List Nat}

theorem CodesFrom.of_clear {p' : Nat} (h : CodesFrom mem p' qs) (hle : p ≤ p')
    (hclear : Clear mem p p') : CodesFrom mem p qs := by
  cases qs with
  | nil =>
    intro x hx
    by_cases hlt : x < p'
    · exact hclear x hx hlt
    · exact h x (Nat.not_lt.mp hlt)
  | cons q rest =>
    obtain ⟨hcode, hp, hc, hrest⟩ := h
    exact ⟨hcode, Nat.le_trans hle hp, hclear.trans hc, hrest⟩

/-- The filtered range lists the start codes in order. -/
theorem codesFrom_range' {k : Nat} (hk : p + k = mem.length) :
    CodesFrom mem p ((List.range' p k).filter (StartCodeAt mem ·)) := by
  induction k generalizing p with
  | zero =>
    intro x hx hcode
    have := hcode.1
    omega
  | succ k ih =>
    have hrest := ih (p := p + 1) (by omega)
    rw [List.range'_succ, List.filter_cons]
    split_ifs with hcode
    · exact ⟨of_decide_eq_true hcode, Nat.le_refl p, .refl mem p, hrest⟩
    · have hcode' : ¬ StartCodeAt mem p := fun h => hcode (decide_eq_true h)
      exact hrest.of_clear (Nat.le_succ p) (.succ hcode')

theorem codesFrom_startCodes (mem : List UInt8) : CodesFrom mem 0 (startCodes mem) := by
  rw [startCodes, List.range_eq_range']
  exact codesFrom_range' (Nat.zero_add _)

/-- Start codes do not overlap. -/
theorem CodesFrom.behind (hcode : StartCodeAt mem q) (h : CodesFrom mem (q + 1) qs) :
    CodesFrom mem (q + 3) qs := by
  obtain ⟨_, _, h1, h2⟩ := hcode
  have n1 : ¬ StartCodeAt mem (q + 1) := by
    rintro ⟨_, _, h2', _⟩
    rw [h2] at h2'
    cases h2'
  have n2 : ¬ StartCodeAt mem (q + 2) := by
    rintro ⟨_, h2', _⟩
    rw [h2] at h2'
    cases h2'
  cases qs with
  | nil => exact fun x hx => h x (by omega)
  | cons r rest =>
    obtain ⟨hr, hle, hclear, hrest⟩ := h
    have hr1 : r ≠ q + 1 := fun e => n1 (e ▸ hr)
    have hr2 : r ≠ q + 2 := fun e => n2 (e ▸ hr)
    exact ⟨hr, by omega, fun x hx => hclear x (by omega), hrest⟩

/-- The scanner's next find is the head of the list. -/
theorem CodesFrom.first (h : CodesFrom mem p qs) :
    FirstFrom mem p (qs.headD mem.length) := by
  cases qs with
  | nil => exact Or.inr ⟨rfl, h⟩
  | cons q rest => exact Or.inl ⟨h.1, h.2.1, h.2.2.1⟩

end Codes

/-! ## Calls -/

/-- Where `nal_start` stands before a call: at the end of the file if no start code is
left, else at the next one or at the zero byte in front of it. -/
def Positioned (mem : List UInt8) (x : Nat) : List Nat → Prop
  | [] => x = mem.length
  | q :: _ => StartCodeAt mem q ∧ (x = q ∨ (x + 1 = q ∧ mem[x]? = some 0))

section Calls

variable {mem : List UInt8} {x p q : Nat} {qs : List Nat}

theorem skipZeros_of_zero (h : mem[x]? = some 0) :
    skipZeros mem x = skipZeros mem (x + 1) := by
  have hlt := (List.getElem?_eq_some_iff.mp h).1
  rw [skipZeros, if_pos hlt, loadByte_eq_ok_iff.mpr h]
  exact if_pos rfl

theorem skipZeros_of_ne_zero {b : UInt8} (h : mem[x]? = some b) (hb : b ≠ 0) :
    skipZeros mem x = .ok (x + 1) := by
  have hlt := (List.getElem?_eq_some_iff.mp h).1
  rw [skipZeros, if_pos hlt, loadByte_eq_ok_iff.mpr h]
  exact if_neg hb

/-- The loop steps over a start code and a zero byte in front of it. -/
theorem skipZeros_positioned (h : Positioned mem x (q :: qs)) :
    skipZeros mem x = .ok (q + 3) := by
  obtain ⟨⟨_, h0, h1, h2⟩, hx⟩ := h
  have hskip : skipZeros mem q = .ok (q + 3) := by
    rw [skipZeros_of_zero h0, skipZeros_of_zero h1]
    exact skipZeros_of_ne_zero h2 (by decide)
  rcases hx with rfl | ⟨rfl, hzero⟩
  · exact hskip
  · rw [skipZeros_of_zero hzero, hskip]

theorem skipZeros_end : skipZeros mem mem.length = .ok mem.length := by
  rw [skipZeros, if_neg (Nat.lt_irrefl _)]

theorem backUp_length : backUp mem p mem.length = mem.length :=
  if_neg fun h => Nat.lt_irrefl _ h.2.1

theorem backUp_eq (h : q < mem.length) :
    backUp mem p q = if p < q ∧ mem[q - 1]? = some 0 then q - 1 else q := by
  unfold backUp
  simp only [h, true_and]

/-- What the scanner returns is a position for what it found. -/
theorem positioned_backUp (h : CodesFrom mem p qs) :
    Positioned mem (backUp mem p (qs.headD mem.length)) qs := by
  cases qs with
  | nil => exact backUp_length
  | cons q rest =>
    have hlt : q < mem.length := by
      have := h.1.1
      omega
    refine ⟨h.1, ?_⟩
    rw [List.headD_cons, backUp_eq hlt]
    by_cases hb : p < q ∧ mem[q - 1]? = some 0
    · rw [if_pos hb]
      exact Or.inr ⟨by omega, hb.2⟩
    · rw [if_neg hb]
      exact Or.inl rfl

/-- The next slice: its start and the end the scanner returns. -/
theorem slicesBehind_cons :
    slicesBehind mem (q :: qs) =
      (q + 3, if qs = [] then mem.length else sliceEnd mem q (qs.headD 0))
        :: slicesBehind mem qs := by
  cases qs <;> rfl

/-- The end of a slice is where the scanner stops behind its start code. -/
theorem sliceEnd_eq_backUp (h : CodesFrom mem (q + 3) qs) :
    (if qs = [] then mem.length else sliceEnd mem q (qs.headD 0)) =
      backUp mem (q + 3) (qs.headD mem.length) := by
  cases qs with
  | nil => exact backUp_length.symm
  | cons q' rest =>
    have hlt : q' < mem.length := by
      have := h.1.1
      omega
    change sliceEnd mem q q' = backUp mem (q + 3) q'
    rw [backUp_eq hlt]
    rfl

variable (extra base : Nat) {st : NalState}

/-- A call with a start code left returns the slice behind it. -/
theorem findNextNalWith_cons (hmapped : st.mapped = true)
    (hpos : Positioned mem st.nalStart (q :: qs)) (hqs : CodesFrom mem (q + 3) qs) :
    ∃ st', findNextNalWith extra base mem st =
        .ok (st', backUp mem (q + 3) (qs.headD mem.length) - (q + 3), some (q + 3)) ∧
      st'.mapped = true ∧ Positioned mem st'.nalStart qs := by
  have hlt : q + 3 ≠ mem.length := by
    have := hpos.1.1
    omega
  refine ⟨{ st with
    len := st.len + extra + (backUp mem (q + 3) (qs.headD mem.length) - (q + 3))
    nalStart := backUp mem (q + 3) (qs.headD mem.length)
    nalEnd := backUp mem (q + 3) (qs.headD mem.length) }, ?_, hmapped,
    positioned_backUp hqs⟩
  rw [findNextNalWith, mapFile, if_pos hmapped]
  simp only [pure, Except.pure, ok_bind, skipZeros_positioned hpos, if_neg hlt,
    ffAvcFindStartcode_eq base hqs.first]

/-- A call with none left returns the null pair. -/
theorem findNextNalWith_nil (hmapped : st.mapped = true)
    (hpos : Positioned mem st.nalStart []) :
    ∃ st', findNextNalWith extra base mem st = .ok (st', 0, none) ∧
      st'.mapped = true ∧ Positioned mem st'.nalStart [] := by
  have hend : st.nalStart = mem.length := hpos
  refine ⟨{ st with nalStart := mem.length }, ?_, hmapped, rfl⟩
  rw [findNextNalWith, mapFile, if_pos hmapped]
  simp only [pure, Except.pure, ok_bind, hend, skipZeros_end, if_true]

/-- The first call finds the first start code and goes on as any other. -/
theorem findNextNalWith_init (mem : List UInt8) :
    ∃ st, findNextNalWith extra base mem {} = findNextNalWith extra base mem st ∧
      st.mapped = true ∧ Positioned mem st.nalStart (startCodes mem) := by
  have hcodes := codesFrom_startCodes mem
  have hfirst := ffAvcFindStartcode_eq base hcodes.first
  refine ⟨{ mapped := true, nalStart := backUp mem 0 ((startCodes mem).headD mem.length) },
    ?_, rfl, positioned_backUp hcodes⟩
  rw [findNextNalWith, mapFile, if_neg (by decide), hfirst]
  rfl

/-- Calls from a position return the slices behind the start codes left, then the null
pair over and over. -/
theorem calls_positioned (k : Nat) (hmapped : st.mapped = true)
    (hpos : Positioned mem st.nalStart qs) (hqs : CodesFrom mem p qs) :
    calls (findNextNalWith extra base mem) (qs.length + k) st =
      .ok ((slicesBehind mem qs).map (fun s => (s.2 - s.1, some s.1))
        ++ List.replicate k (0, none)) := by
  induction qs generalizing st p with
  | nil =>
    rw [List.length_nil, Nat.zero_add]
    induction k generalizing st with
    | zero => rfl
    | succ k ih =>
      obtain ⟨st', hcall, hmapped', hpos'⟩ := findNextNalWith_nil extra base hmapped hpos
      rw [calls, hcall, ok_bind]
      dsimp only
      rw [ih hmapped' hpos', List.replicate_succ]
      rfl
  | cons q qs ih =>
    have hqs' := hqs.2.2.2.behind hqs.1
    obtain ⟨st', hcall, hmapped', hpos'⟩ := findNextNalWith_cons extra base hmapped hpos hqs'
    rw [List.length_cons, Nat.add_right_comm, calls, hcall, ok_bind]
    dsimp only
    rw [ih hmapped' hpos' hqs', slicesBehind_cons, sliceEnd_eq_backUp hqs']
    rfl

/-- The calls from the start, with at least one after the last slice. -/
theorem calls_init (mem : List UInt8) (k : Nat) :
    calls (findNextNalWith extra base mem) ((startCodes mem).length + (k + 1)) {} =
      .ok ((annexBSlices mem).map (fun s => (s.2 - s.1, some s.1))
        ++ List.replicate (k + 1) (0, none)) := by
  obtain ⟨st, hinit, hmapped, hpos⟩ := findNextNalWith_init extra base mem
  have h := calls_positioned extra base (k + 1) hmapped hpos (codesFrom_startCodes mem)
  rw [← Nat.add_assoc, calls] at h ⊢
  rw [hinit]
  exact h

end Calls

/-! ## Any call -/

/-- The static variables before the first call and after every call. -/
def NalState.Ready (mem : List UInt8) (st : NalState) : Prop :=
  st = {} ∨ st.mapped = true ∧ ∃ p qs, CodesFrom mem p qs ∧ Positioned mem st.nalStart qs

theorem backUp_le (mem : List UInt8) {p q : Nat} (h : q ≤ mem.length) :
    backUp mem p q ≤ mem.length := by
  unfold backUp
  split_ifs <;> omega

/-- A call does not fault, and what it returns lies in the file. -/
theorem NalState.Ready.findNextNalWith {mem : List UInt8} {st : NalState}
    (h : st.Ready mem) (extra base : Nat) :
    ∃ st' size data, findNextNalWith extra base mem st = .ok (st', size, data) ∧
      st'.Ready mem ∧ ∀ d, data = some d → d + size ≤ mem.length := by
  obtain ⟨st₁, p, qs, hcall, hmapped, hqs, hpos⟩ : ∃ st₁ p qs,
      Live555.findNextNalWith extra base mem st = Live555.findNextNalWith extra base mem st₁ ∧
        st₁.mapped = true ∧ CodesFrom mem p qs ∧ Positioned mem st₁.nalStart qs := by
    rcases h with rfl | ⟨hmapped, p, qs, hqs, hpos⟩
    · obtain ⟨st₁, hinit, hmapped, hpos⟩ := findNextNalWith_init extra base mem
      exact ⟨st₁, 0, _, hinit, hmapped, codesFrom_startCodes mem, hpos⟩
    · exact ⟨st, p, qs, rfl, hmapped, hqs, hpos⟩
  rw [hcall]
  cases qs with
  | nil =>
    obtain ⟨st', hnext, hmapped', hpos'⟩ := findNextNalWith_nil extra base hmapped hpos
    exact ⟨st', 0, none, hnext, .inr ⟨hmapped', p, [], hqs, hpos'⟩, by simp⟩
  | cons q qs =>
    have hrest := hqs.2.2.2.behind hqs.1
    obtain ⟨st', hnext, hmapped', hpos'⟩ := findNextNalWith_cons extra base hmapped hpos hrest
    refine ⟨st', _, _, hnext, .inr ⟨hmapped', _, qs, hrest, hpos'⟩, ?_⟩
    rintro d ⟨⟩
    have hstart := hqs.1.1
    have hend : backUp mem (q + 3) (qs.headD mem.length) ≤ mem.length := by
      refine backUp_le mem ?_
      cases qs with
      | nil => exact Nat.le_refl _
      | cons q' _ =>
        have := hrest.1.1
        simp only [List.headD_cons]
        omega
    omega

/-- The slices that the calls from `st` on are to return. -/
def NalState.Ahead (extra base : Nat) (mem : List UInt8) (st : NalState)
    (slices : List (Nat × Nat)) : Prop :=
  ∃ st₁ p qs,
    Live555.findNextNalWith extra base mem st = Live555.findNextNalWith extra base mem st₁ ∧
    st₁.mapped = true ∧ CodesFrom mem p qs ∧ Positioned mem st₁.nalStart qs ∧
    slicesBehind mem qs = slices

section Ahead

variable {extra base : Nat} {mem : List UInt8} {st : NalState} {slices : List (Nat × Nat)}

theorem NalState.ahead_init (extra base : Nat) (mem : List UInt8) :
    NalState.Ahead extra base mem {} (annexBSlices mem) := by
  obtain ⟨st₁, hinit, hmapped, hpos⟩ := findNextNalWith_init extra base mem
  exact ⟨st₁, 0, _, hinit, hmapped, codesFrom_startCodes mem, hpos, rfl⟩

/-- With nothing ahead a call returns the null pair. -/
theorem NalState.Ahead.nil (h : st.Ahead extra base mem []) :
    ∃ st', Live555.findNextNalWith extra base mem st = .ok (st', 0, none) ∧
      st'.Ahead extra base mem [] := by
  obtain ⟨st₁, p, qs, hcall, hmapped, hqs, hpos, hslices⟩ := h
  cases qs with
  | nil =>
    obtain ⟨st', hnext, hmapped', hpos'⟩ := findNextNalWith_nil extra base hmapped hpos
    exact ⟨st', hcall.trans hnext, st', p, [], rfl, hmapped', hqs, hpos', rfl⟩
  | cons q qs =>
    rw [slicesBehind_cons] at hslices
    cases hslices

/-- A call returns the next slice. -/
theorem NalState.Ahead.cons {slice : Nat × Nat} (h : st.Ahead extra base mem (slice :: slices)) :
    ∃ st', Live555.findNextNalWith extra base mem st =
        .ok (st', slice.2 - slice.1, some slice.1) ∧
      st'.Ahead extra base mem slices := by
  obtain ⟨st₁, p, qs, hcall, hmapped, hqs, hpos, hslices⟩ := h
  cases qs with
  | nil => cases hslices
  | cons q qs =>
    have hrest := hqs.2.2.2.behind hqs.1
    obtain ⟨st', hnext, hmapped', hpos'⟩ := findNextNalWith_cons extra base hmapped hpos hrest
    rw [slicesBehind_cons, sliceEnd_eq_backUp hrest] at hslices
    obtain ⟨rfl, rfl⟩ := List.cons.inj hslices
    exact ⟨st', hcall.trans hnext, st', _, qs, rfl, hmapped', hrest, hpos', rfl⟩

end Ahead

/-! ## Nothing lost, nothing twice -/

section Coverage

variable {mem : List UInt8} {p q : Nat} {qs : List Nat}

theorem sliceEnd_bounds (mem : List UInt8) {q' : Nat} (h : q + 3 ≤ q') :
    q + 3 ≤ sliceEnd mem q q' ∧ sliceEnd mem q q' ≤ q' := by
  unfold sliceEnd
  split_ifs <;> omega

/-- The slices lie in the file behind their start codes, in order and without
overlap. -/
theorem slicesBehind_ordered (h : CodesFrom mem p qs) :
    (∀ s ∈ slicesBehind mem qs, qs.headD 0 + 3 ≤ s.1 ∧ s.1 ≤ s.2 ∧ s.2 ≤ mem.length) ∧
      (slicesBehind mem qs).Pairwise (fun s s' => s.2 ≤ s'.1) := by
  induction qs generalizing p with
  | nil => simp [slicesBehind]
  | cons q qs ih =>
    obtain ⟨hcode, _, _, hrest⟩ := h
    have hlen := hcode.1
    have hqs := hrest.behind hcode
    obtain ⟨hbounds, hpair⟩ := ih hqs
    cases qs with
    | nil =>
      simp only [slicesBehind, List.mem_singleton, forall_eq, List.pairwise_singleton,
        and_true, List.headD_cons]
      omega
    | cons q' rest =>
      obtain ⟨hlo, hhi⟩ := sliceEnd_bounds mem hqs.2.1
      have hlen' := hqs.1.1
      have hle := hqs.2.1
      simp only [List.headD_cons] at hbounds ⊢
      refine ⟨List.forall_mem_cons.mpr ⟨⟨by omega, hlo, by omega⟩, fun s hs => ?_⟩,
        List.pairwise_cons.mpr ⟨fun s hs => ?_, hpair⟩⟩
      · have := hbounds s hs
        omega
      · have := hbounds s hs
        dsimp only
        omega

/-- Every byte from the first start code on is in a slice, in a start code, or the zero
byte in front of one. -/
theorem slicesBehind_cover (h : CodesFrom mem p qs) {x : Nat} (hx : x < mem.length)
    (hfirst : qs.headD mem.length ≤ x) :
    (∃ s ∈ slicesBehind mem qs, s.1 ≤ x ∧ x < s.2) ∨ (∃ q ∈ qs, q ≤ x ∧ x < q + 3) ∨
      (mem[x]? = some 0 ∧ x + 1 ∈ qs) := by
  induction qs generalizing p with
  | nil => exact absurd hx (Nat.not_lt.mpr hfirst)
  | cons q qs ih =>
    obtain ⟨hcode, _, _, hrest⟩ := h
    have hqs := hrest.behind hcode
    by_cases hcodeByte : x < q + 3
    · exact Or.inr (Or.inl ⟨q, List.mem_cons_self, hfirst, hcodeByte⟩)
    · cases qs with
      | nil =>
        exact Or.inl ⟨_, List.mem_singleton_self _, Nat.not_lt.mp hcodeByte, hx⟩
      | cons q' rest =>
        by_cases hslice : x < sliceEnd mem q q'
        · exact Or.inl ⟨_, List.mem_cons_self, Nat.not_lt.mp hcodeByte, hslice⟩
        · by_cases hnext : q' ≤ x
          · rcases ih hqs hnext with ⟨s, hs, hin⟩ | ⟨r, hr, hin⟩ | ⟨hzero, hmem⟩
            · exact Or.inl ⟨s, List.mem_cons_of_mem _ hs, hin⟩
            · exact Or.inr (Or.inl ⟨r, List.mem_cons_of_mem _ hr, hin⟩)
            · exact Or.inr (Or.inr ⟨hzero, List.mem_cons_of_mem _ hmem⟩)
          · -- between the end of the slice and the next start code: the zero byte
            unfold sliceEnd at hslice
            split_ifs at hslice with hb
            · obtain rfl : x = q' - 1 := by omega
              have hsucc : q' - 1 + 1 = q' := by omega
              refine Or.inr (Or.inr ⟨hb.2, ?_⟩)
              rw [hsucc]
              exact List.mem_cons_of_mem _ List.mem_cons_self
            · omega

end Coverage

/-- For every file and every alignment of its mapping, the calls of `find_next_nal`
return the slices of the Annex-B split and then the null pair forever, in both copies of
the function; the scanner agrees with a byte-by-byte scan; the slices do not overlap;
and from the first start code on every byte is in a slice, in a start code, or the zero
byte in front of one. -/
theorem findNextNal_annexB (base : Nat) (mem : List UInt8) :
    (∀ k, calls (findNextNal base mem) ((startCodes mem).length + (k + 1)) {} =
      .ok ((annexBSlices mem).map (fun s => (s.2 - s.1, some s.1))
        ++ List.replicate (k + 1) (0, none))) ∧
    (∀ k, calls (LatencySender.findNextNal base mem)
        ((startCodes mem).length + (k + 1)) {} =
      .ok ((annexBSlices mem).map (fun s => (s.2 - s.1, some s.1))
        ++ List.replicate (k + 1) (0, none))) ∧
    (∀ p, ffAvcFindStartcodeInternal base mem p mem.length = byteByByte mem p) ∧
    (∀ s ∈ annexBSlices mem, s.1 ≤ s.2 ∧ s.2 ≤ mem.length) ∧
    (annexBSlices mem).Pairwise (fun s s' => s.2 ≤ s'.1) ∧
    (∀ x < mem.length, (startCodes mem).headD mem.length ≤ x →
      (∃ s ∈ annexBSlices mem, s.1 ≤ x ∧ x < s.2) ∨
      (∃ q ∈ startCodes mem, q ≤ x ∧ x < q + 3) ∨
      (mem[x]? = some 0 ∧ x + 1 ∈ startCodes mem)) := by
  have hcodes := codesFrom_startCodes mem
  obtain ⟨hbounds, hpair⟩ := slicesBehind_ordered hcodes
  exact ⟨calls_init 0 base mem, calls_init 4 base mem,
    ffAvcFindStartcodeInternal_eq base mem, fun s hs => (hbounds s hs).2, hpair,
    fun x hx hfirst => slicesBehind_cover hcodes hx hfirst⟩

end RtpBenchmarks.Live555
