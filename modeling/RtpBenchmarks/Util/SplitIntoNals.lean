import RtpBenchmarks.Util.NextFrameStart

set_option autoImplicit false

/-!
# The NAL units of a chunk (`FramedSourceCustom::splitIntoNals`, `util/live555_util.cc`)

A chunk is cut at its start codes: a NAL unit is pushed when the start code behind it is
found, and its size is computed from two positions and the size of that start code.  The
last NAL unit goes up to the end of the chunk.
-/

namespace RtpBenchmarks.Util

/-! ## The code -/

/-- The variables of `splitIntoNals`, and the sizes and the places in the chunk that are
pushed to `nals_`. -/
structure SplitState where
  offset : Int
  prevOffset : Int
  startLen : UInt8
  nals : List (Nat × Int) := []
  deriving DecidableEq, Repr

/-- A size of type `size_t`. -/
def sizeT (n : Int) : Nat := (n % 2 ^ 64).toNat

/-- The body of the loop. -/
def splitStep (data : List UInt8) (s : SplitState) : SplitState :=
  let (offset, startLen) := getNextFrameStart data (s.offset % 2 ^ 32).toNat s.startLen
  if 4 < offset ∧ offset ≠ -1 then
    { offset
      startLen
      nals := s.nals ++ [(sizeT (offset - s.prevOffset - startLen.toNat), s.prevOffset)]
      prevOffset := offset }
  else { s with offset, startLen }

/-- How far the loop is from the end of the chunk. -/
def SplitState.ahead (c : Chunk) (s : SplitState) : Nat :=
  if s.offset = -1 then 0 else c.bytes.length + 1 - (s.offset % 2 ^ 32).toNat + 1

theorem splitStep_offset (data : List UInt8) (s : SplitState) :
    (splitStep data s).offset =
      (getNextFrameStart data (s.offset % 2 ^ 32).toNat s.startLen).1 := by
  unfold splitStep
  dsimp only
  split_ifs <;> rfl

theorem splitStep_ahead (c : Chunk) {s : SplitState} (h : s.offset ≠ -1) :
    (splitStep c.bytes s).ahead c < s.ahead c := by
  have hbounds := getNextFrameStart_bounds c (s.offset % 2 ^ 32).toNat s.startLen
  have hsmall := c.small
  rw [← splitStep_offset] at hbounds
  unfold SplitState.ahead
  rw [if_neg h]
  split_ifs with hend <;> omega

/-- The loop. -/
@[semireducible] def splitLoop (c : Chunk) (s : SplitState) : SplitState :=
  if s.offset = -1 then s else splitLoop c (splitStep c.bytes s)
termination_by s.ahead c
decreasing_by exact splitStep_ahead c ‹_›

/-- What is pushed behind the loop. -/
def finishSplit (c : Chunk) (s : SplitState) : List (Nat × Int) :=
  let prevOffset := if s.prevOffset = -1 then 0 else s.prevOffset
  s.nals ++ [(sizeT (c.bytes.length - prevOffset), prevOffset)]

/-- `splitIntoNals`; `start_len` is not initialised. -/
def splitIntoNals (c : Chunk) (startLen : UInt8) : List (Nat × Int) :=
  let (offset, startLen) := getNextFrameStart c.bytes 0 startLen
  finishSplit c (splitLoop c { offset, prevOffset := offset, startLen })

/-! ## Byte ranges -/

/-- The byte ranges from `start` on, up to the zeros before each of the codes and, the last
one, up to the end. -/
def rangesBehind (zeros : Nat → Int) (len start : Nat) : List Nat → List (Int × Int)
  | [] => [(start, len)]
  | x :: xs => (start, x - zeros x) :: rangesBehind zeros len (x + 1) xs

/-- The byte ranges between the start codes of a chunk, or the whole chunk. -/
def nalRanges (data : List UInt8) : List (Int × Int) :=
  match startCodes data 0 with
  | [] => [(0, data.length)]
  | x :: xs => rangesBehind (zeroRun data 0 ·) data.length (x + 1) xs

/-- The byte range of a size and a place. -/
def nalRange (nal : Nat × Int) : Int × Int :=
  (nal.2, nal.2 + nal.1)

example : nalRanges [0, 0, 1, 5, 0, 0, 0, 1, 7, 8] = [(3, 4), (8, 10)] := by decide

/-- A size that is not negative is what was computed. -/
theorem nalRange_sizeT {n : Int} (start : Int) (h : 0 ≤ n) (hn : n < 2 ^ 64) :
    nalRange (sizeT n, start) = (start, start + n) := by
  unfold nalRange sizeT
  rw [Int.emod_eq_of_lt h hn, Int.toNat_of_nonneg h]

section Ranges

variable {f g : Nat → Int} {len start start' : Nat} {xs ys : List Nat}

theorem rangesBehind_ne_nil : rangesBehind f len start xs ≠ [] := by
  cases xs <;> exact List.cons_ne_nil _ _

/-- The ranges tell the codes and the zeros that were taken off. -/
theorem rangesBehind_inj :
    rangesBehind f len start xs = rangesBehind g len start' ys ↔
      start = start' ∧ xs = ys ∧ ∀ x ∈ xs, f x = g x := by
  induction xs generalizing start start' ys with
  | nil =>
    cases ys with
    | nil =>
      simp only [rangesBehind, List.cons.injEq, Prod.mk.injEq, and_true, List.not_mem_nil,
        false_imp_iff, implies_true]
      omega
    | cons y ys => simp [rangesBehind, rangesBehind_ne_nil.symm]
  | cons x xs ih =>
    cases ys with
    | nil => simp [rangesBehind, rangesBehind_ne_nil]
    | cons y ys =>
      simp only [rangesBehind, List.cons.injEq, Prod.mk.injEq, ih, List.forall_mem_cons]
      constructor
      · rintro ⟨⟨hstart, hstop⟩, hcode, hrest, hzeros⟩
        obtain rfl : x = y := by omega
        exact ⟨by omega, ⟨rfl, hrest⟩, by omega, hzeros⟩
      · rintro ⟨rfl, ⟨rfl, rfl⟩, hhead, hzeros⟩
        exact ⟨⟨rfl, by rw [hhead]⟩, rfl, rfl, hzeros⟩

end Ranges

/-! ## The loop -/

section Loop

variable {c : Chunk} {s : SplitState} {start x : Nat} {xs : List Nat}

/-- The zeros that are taken off for a start code, by a size of one byte. -/
def zerosTaken (data : List UInt8) (x : Nat) : Int :=
  ((zeroRun data 0 x + 1) % 256 : Nat) - 1

/-- Between two codes: the next code is looked for from behind the last one on. -/
structure Between (c : Chunk) (start : Nat) (s : SplitState) : Prop where
  offset : s.offset = start
  prevOffset : s.prevOffset = start
  inside : start ≤ c.bytes.length
  behind : 3 ≤ start
  zeros : ∀ x, start ≤ x → zeroRun c.bytes start x = zeroRun c.bytes 0 x

theorem Between.search (h : Between c start s) :
    getNextFrameStart c.bytes (s.offset % 2 ^ 32).toNat s.startLen =
      (seenCodes c.bytes start).head?.elim (-1, s.startLen)
        fun x => ((x : Int) + 1, UInt8.ofNat (zeroRun c.bytes start x + 1)) := by
  have hsmall := c.small
  have hinside := h.inside
  have hoffset : (s.offset % 2 ^ 32).toNat = start := by
    rw [h.offset]
    omega
  rw [hoffset, getNextFrameStart_eq]

/-- Behind the last code the loop ends. -/
theorem Between.last (h : Between c start s) (hcodes : seenCodes c.bytes start = []) :
    splitLoop c s = { s with offset := -1 } := by
  have hoffset := h.offset
  have hstep : splitStep c.bytes s = { s with offset := -1 } := by
    unfold splitStep
    rw [h.search, hcodes]
    rfl
  rw [splitLoop, if_neg (by omega), hstep, splitLoop, if_pos rfl]

/-- The range up to the next code is pushed. -/
theorem Between.next (h : Between c start s) (hcodes : seenCodes c.bytes start = x :: xs) :
    ∃ s', splitLoop c s = splitLoop c s' ∧ Between c (x + 1) s' ∧
      s'.nals.map nalRange = s.nals.map nalRange ++ [((start : Int), x - zerosTaken c.bytes x)] := by
  have hoffset := h.offset
  have hprev := h.prevOffset
  have hbehind := h.behind
  have hmem : x ∈ seenCodes c.bytes start := hcodes ▸ List.mem_cons_self
  have hx := mem_codes.mp hmem
  have hstart : start < x := lt_of_mem_codes (by decide) hmem
  have hlt := (List.getElem?_eq_some_iff.mp hx.1).1
  have hrun : zeroRun c.bytes start x ≤ x - start := zeroRun_le
  have hsmall := c.small
  have hbyte : (UInt8.ofNat (zeroRun c.bytes start x + 1)).toNat =
      (zeroRun c.bytes start x + 1) % 256 := UInt8.toNat_ofNat'
  refine ⟨splitStep c.bytes s, ?_, ?_, ?_⟩
  · rw [splitLoop, if_neg (by omega)]
  all_goals
    unfold splitStep
    rw [h.search, hcodes]
    rw [List.head?_cons, Option.elim_some]
    dsimp only
    rw [if_pos (by omega)]
  · refine ⟨by simp, by simp, hlt, by omega, fun y hy => zeroRun_behind hx.1 (Nat.zero_le x) hy⟩
  · -- the size of the start code is at most the zeros and one, so the size does not wrap
    rw [List.map_append, List.map_singleton, hbyte, hprev,
      nalRange_sizeT _ (by omega) (by omega), zerosTaken, ← h.zeros x (Nat.le_of_lt hstart)]
    congr 3
    omega

/-- From behind a code on, the chunk is cut at the codes that are seen. -/
theorem Between.ranges (h : Between c start s) (hcodes : seenCodes c.bytes start = xs) :
    (finishSplit c (splitLoop c s)).map nalRange =
      s.nals.map nalRange ++ rangesBehind (zerosTaken c.bytes) c.bytes.length start xs := by
  induction xs generalizing s start with
  | nil =>
    have hprev := h.prevOffset
    have hinside := h.inside
    have hsmall := c.small
    rw [h.last hcodes, finishSplit]
    dsimp only
    rw [if_neg (by omega), hprev, List.map_append, List.map_singleton,
      nalRange_sizeT _ (by omega) (by omega), rangesBehind]
    congr 3
    omega
  | cons x xs ih =>
    obtain ⟨s', hloop, hbetween, hnals⟩ := h.next hcodes
    rw [hloop, ih hbetween (codes_cons (by decide) hcodes), hnals, List.append_assoc]
    rfl

/-- The chunk is cut at the codes that are seen. -/
theorem splitIntoNals_ranges (c : Chunk) (startLen : UInt8) :
    (splitIntoNals c startLen).map nalRange =
      match seenCodes c.bytes 0 with
      | [] => [(0, (c.bytes.length : Int))]
      | x :: xs => rangesBehind (zerosTaken c.bytes) c.bytes.length (x + 1) xs := by
  have hsmall := c.small
  unfold splitIntoNals
  rw [getNextFrameStart_eq]
  cases hcodes : seenCodes c.bytes 0 with
  | nil =>
    rw [List.head?_nil, Option.elim_none]
    dsimp only
    rw [splitLoop, if_pos rfl, finishSplit]
    dsimp only
    rw [if_pos rfl, List.nil_append, List.map_singleton,
      nalRange_sizeT _ (by omega) (by omega)]
    congr 2
    omega
  | cons x xs =>
    have hmem : x ∈ seenCodes c.bytes 0 := hcodes ▸ List.mem_cons_self
    have hx := mem_codes.mp hmem
    have hlt := (List.getElem?_eq_some_iff.mp hx.1).1
    have hrun : zeroRun c.bytes 0 x ≤ x - 0 := zeroRun_le
    have htwo : 2 ≤ zeroRun c.bytes 0 x % 256 := by simpa using hx.2
    have hbetween : Between c (x + 1)
        { offset := (x : Int) + 1
          prevOffset := x + 1
          startLen := UInt8.ofNat (zeroRun c.bytes 0 x + 1) } :=
      { offset := by simp
        prevOffset := by simp
        inside := hlt
        behind := by omega
        zeros := fun y hy => zeroRun_behind hx.1 (Nat.zero_le x) hy }
    exact hbetween.ranges (codes_cons (by decide) hcodes)

/-- The zeros that are taken off are those of the start code if there are less than 255. -/
theorem zerosTaken_eq_iff (data : List UInt8) (x : Nat) :
    zerosTaken data x = zeroRun data 0 x ↔ zeroRun data 0 x ≤ 254 := by
  unfold zerosTaken
  omega

/-- The NAL units of a chunk are cut right if and only if the counter sees the first start
code and holds the size of all others. -/
theorem splitIntoNals_eq_iff (c : Chunk) (startLen : UInt8) :
    (splitIntoNals c startLen).map nalRange = nalRanges c.bytes ↔
      (∀ x ∈ (startCodes c.bytes 0).head?, 2 ≤ zeroRun c.bytes 0 x % 256) ∧
        ∀ x ∈ (startCodes c.bytes 0).tail, zeroRun c.bytes 0 x ≤ 254 := by
  have hseen := seenCodes_eq_filter c.bytes 0
  rw [splitIntoNals_ranges, nalRanges]
  cases hcodes : startCodes c.bytes 0 with
  | nil =>
    rw [hcodes] at hseen
    simp [hseen]
  | cons x xs =>
    rw [hcodes] at hseen
    have htail : ∀ y ∈ xs, 2 ≤ zeroRun c.bytes 0 y := fun y hy =>
      two_le_zeroRun (hcodes ▸ List.mem_cons_of_mem x hy)
    simp only [List.head?_cons, Option.mem_def, Option.some.injEq, forall_eq', List.tail_cons]
    constructor
    · intro heq
      cases hcut : seenCodes c.bytes 0 with
      | nil =>
        rw [hcut] at heq
        have hstart := (@rangesBehind_inj (fun _ => 0) _ _ 0 (x + 1) [] xs).mp heq
        exact absurd hstart.1 (by omega)
      | cons y ys =>
        rw [hcut] at heq
        obtain ⟨hstart, rfl, hzeros⟩ := rangesBehind_inj.mp heq
        obtain rfl : y = x := by omega
        have hmem : y ∈ seenCodes c.bytes 0 := hcut ▸ List.mem_cons_self
        exact ⟨by simpa using (mem_codes.mp hmem).2, fun z hz =>
          (zerosTaken_eq_iff c.bytes z).mp (hzeros z hz)⟩
    · rintro ⟨hfirst, hrest⟩
      have hall : xs.filter (fun y => 2 ≤ zeroRun c.bytes 0 y % 256) = xs :=
        List.filter_eq_self.mpr fun y hy => by
          have hle := hrest y hy
          have hge := htail y hy
          simpa using (by omega : 2 ≤ zeroRun c.bytes 0 y % 256)
      rw [hseen, List.filter_cons_of_pos (by simpa using hfirst), hall]
      exact rangesBehind_inj.mpr ⟨rfl, rfl, fun y hy =>
        (zerosTaken_eq_iff c.bytes y).mpr (hrest y hy)⟩

end Loop

/-- The scanner finds the next start code and its size if and only if it has less than 255
zeros, and a chunk is cut right if and only if the first of its start codes is seen and the
others have less than 255 zeros. -/
theorem startCodes_found_iff (c : Chunk) (startLen : UInt8) :
    (∀ offset, FindsNext c.bytes offset (getNextFrameStart c.bytes offset startLen) ↔
      ∀ x ∈ (startCodes c.bytes offset).head?, zeroRun c.bytes offset x ≤ 254) ∧
    ((splitIntoNals c startLen).map nalRange = nalRanges c.bytes ↔
      (∀ x ∈ (startCodes c.bytes 0).head?, 2 ≤ zeroRun c.bytes 0 x % 256) ∧
        ∀ x ∈ (startCodes c.bytes 0).tail, zeroRun c.bytes 0 x ≤ 254) :=
  ⟨fun offset => findsNext_iff c offset startLen, splitIntoNals_eq_iff c startLen⟩

/-- A start code with `n` zeros, and a byte. -/
def zerosChunk (n : Nat) (hn : n < 2 ^ 16) : Chunk where
  bytes := List.replicate n 0 ++ [1, 7]
  small := by
    rw [List.length_append, List.length_replicate, List.length_cons, List.length_singleton]
    omega

/-- A start code with 255 zeros, whose size is given as 0, and a start code with 256, which
is not found. -/
theorem startCodes_not_found :
    (getNextFrameStart (zerosChunk 255 (by decide)).bytes 0 0 = (256, 0) ∧
      ¬ FindsNext (zerosChunk 255 (by decide)).bytes 0
        (getNextFrameStart (zerosChunk 255 (by decide)).bytes 0 0)) ∧
    getNextFrameStart (zerosChunk 256 (by decide)).bytes 0 0 = (-1, 0) ∧
      (splitIntoNals (zerosChunk 256 (by decide)) 0).map nalRange = [(0, 258)] ∧
      nalRanges (zerosChunk 256 (by decide)).bytes = [(257, 258)] := by
  have hsize : getNextFrameStart (zerosChunk 255 (by decide)).bytes 0 0 = (256, 0) := by
    decide +kernel
  have hnone : getNextFrameStart (zerosChunk 256 (by decide)).bytes 0 0 = (-1, 0) := by
    decide +kernel
  refine ⟨⟨hsize, ?_⟩, hnone, ?_, by decide +kernel⟩
  · -- a start code is found, and no start code has the size 0
    rw [hsize, FindsNext]
    cases (startCodes (zerosChunk 255 (by decide)).bytes 0).head? with
    | none => decide
    | some x => exact fun h => absurd h.2 (Nat.succ_ne_zero _).symm
  · rw [splitIntoNals, hnone]
    dsimp only
    rw [splitLoop, if_pos rfl]
    decide +kernel

end RtpBenchmarks.Util
