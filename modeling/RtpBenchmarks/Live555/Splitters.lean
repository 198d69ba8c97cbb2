import Mathlib.Data.List.Sort
import RtpBenchmarks.Live555.Nals
import RtpBenchmarks.Util.SplitIntoNals

set_option autoImplicit false

/-!
# Live555: two splitters (`find_next_nal`, `splitIntoNals`)

Both cut bytes into NAL units.  `find_next_nal` scans words and takes one zero byte in front of
a start code for a part of it; `splitIntoNals` goes byte by byte and takes all of them, with a
counter of one byte.  A start code at the very end is seen by `splitIntoNals` only.

`splitIntoNals` knows a start code by its 01, `find_next_nal` by its first zero, two bytes before.
-/

namespace RtpBenchmarks.Live555

open RtpBenchmarks.Util (Chunk splitIntoNals nalRange zeroRun rangesBehind seenCodes zerosTaken)

/-! ## Start codes of both -/

/-- The start codes behind which there is a byte: where their 01 is. -/
def innerCodes (mem : List UInt8) : List Nat :=
  (Util.startCodes mem 0).filter (· + 1 < mem.length)

/-- The zeros that `find_next_nal` takes for those of a start code. -/
def zerosInCode (mem : List UInt8) (x : Nat) : Int :=
  if 3 ≤ zeroRun mem 0 x then 3 else 2

section Codes

variable {mem : List UInt8} {p q q' x : Nat} {qs : List Nat}

theorem mem_startCodes_iff :
    x ∈ Util.startCodes mem 0 ↔ mem[x]? = some 1 ∧ 2 ≤ zeroRun mem 0 x := by
  rw [Util.startCodes, Util.mem_codes, decide_eq_true_eq]

/-- Zeros are counted from the last one back. -/
theorem succ_le_zeroRun_iff {k : Nat} (hx : x < mem.length) :
    k + 1 ≤ zeroRun mem 0 (x + 1) ↔ mem[x]? = some 0 ∧ k ≤ zeroRun mem 0 x := by
  have hget : mem[x]? = some mem[x] := List.getElem?_eq_getElem hx
  have hsucc := Foundation.runBefore_succ (p := (· == (0 : UInt8))) (Nat.zero_le x) hget
  unfold zeroRun
  rw [hsucc, hget, Option.some.injEq]
  by_cases hzero : mem[x] = 0
  · simp [hzero]
  · simp [hzero]

theorem two_le_zeroRun_iff (hq : q + 2 < mem.length) :
    2 ≤ zeroRun mem 0 (q + 2) ↔ mem[q]? = some 0 ∧ mem[q + 1]? = some 0 := by
  rw [succ_le_zeroRun_iff (by omega), succ_le_zeroRun_iff (by omega), and_comm]
  simp only [Nat.zero_le, and_true]

/-- The first zero of a start code is two bytes before its 01. -/
theorem startCodeAt_iff_mem :
    StartCodeAt mem q ↔ q + 2 ∈ innerCodes mem := by
  rw [innerCodes, List.mem_filter, mem_startCodes_iff, decide_eq_true_eq]
  constructor
  · rintro ⟨hlt, h0, h1, h2⟩
    exact ⟨⟨h2, (two_le_zeroRun_iff (by omega)).mpr ⟨h0, h1⟩⟩, hlt⟩
  · rintro ⟨⟨h2, hzeros⟩, hlt⟩
    obtain ⟨h0, h1⟩ := (two_le_zeroRun_iff (by omega)).mp hzeros
    exact ⟨hlt, h0, h1, h2⟩

theorem two_le_of_mem_innerCodes (hx : x ∈ innerCodes mem) : 2 ≤ x := by
  have hzeros := (mem_startCodes_iff.mp (List.mem_filter.mp hx).1).2
  have hle : zeroRun mem 0 x ≤ x - 0 := Util.zeroRun_le
  omega

theorem innerCodes_eq (mem : List UInt8) : innerCodes mem = (startCodes mem).map (· + 2) := by
  have hinner : (innerCodes mem).Pairwise (· < ·) := Util.codes_pairwise.filter _
  have hcodes : ((startCodes mem).map (· + 2)).Pairwise (· < ·) := by
    rw [List.pairwise_map]
    refine (List.pairwise_lt_range.filter _).imp fun hlt => ?_
    omega
  refine hinner.eq_of_mem_iff hcodes fun x => ?_
  rw [List.mem_map]
  constructor
  · intro hx
    have htwo := two_le_of_mem_innerCodes hx
    have hback : x - 2 + 2 = x := Nat.sub_add_cancel htwo
    have hcode : StartCodeAt mem (x - 2) := startCodeAt_iff_mem.mpr (hback.symm ▸ hx)
    have hlt := hcode.1
    exact ⟨x - 2, List.mem_filter.mpr ⟨List.mem_range.mpr (by omega), decide_eq_true hcode⟩, hback⟩
  · rintro ⟨q, hq, rfl⟩
    exact startCodeAt_iff_mem.mp (of_decide_eq_true (List.mem_filter.mp hq).2)

/-- A third zero stands in front of the start code. -/
theorem three_le_zeroRun_iff (hcode : StartCodeAt mem q') (hprev : StartCodeAt mem q)
    (hle : q + 3 ≤ q') :
    3 ≤ zeroRun mem 0 (q' + 2) ↔ q + 3 < q' ∧ mem[q' - 1]? = some 0 := by
  obtain ⟨hlt, h0, h1, -⟩ := hcode
  obtain ⟨r, rfl⟩ : ∃ r, q' = r + 1 := ⟨q' - 1, by omega⟩
  rw [succ_le_zeroRun_iff (by omega), succ_le_zeroRun_iff (by omega),
    succ_le_zeroRun_iff (by omega), Nat.add_sub_cancel]
  simp only [h1, h0, Nat.zero_le, true_and, and_true]
  constructor
  · intro hzero
    refine ⟨Nat.lt_of_le_of_ne hle ?_, hzero⟩
    rintro heq
    obtain rfl : r = q + 2 := by omega
    rw [hprev.2.2.2] at hzero
    cases hzero
  · exact fun h => h.2

theorem sliceEnd_eq (hcode : StartCodeAt mem q') (hprev : StartCodeAt mem q) (hle : q + 3 ≤ q') :
    (sliceEnd mem q q' : Int) = ((q' + 2 : Nat) : Int) - zerosInCode mem (q' + 2) := by
  unfold sliceEnd zerosInCode
  simp only [three_le_zeroRun_iff hcode hprev hle]
  split_ifs <;> omega

/-- The slices of `find_next_nal` as ranges between the 01 of the start codes. -/
theorem slicesBehind_eq (h : CodesFrom mem p (q :: qs)) :
    (slicesBehind mem (q :: qs)).map (fun s => ((s.1 : Int), (s.2 : Int))) =
      rangesBehind (zerosInCode mem) mem.length (q + 3) (qs.map (· + 2)) := by
  induction qs generalizing p q with
  | nil => rfl
  | cons q' rest ih =>
    obtain ⟨hcode, -, -, hrest⟩ := h
    have hqs := hrest.behind hcode
    rw [slicesBehind, List.map_cons, List.map_cons, rangesBehind, ih hqs,
      sliceEnd_eq hqs.1 hcode hqs.2.1]

theorem annexBSlices_ranges (mem : List UInt8) :
    (annexBSlices mem).map (fun s => ((s.1 : Int), (s.2 : Int))) =
      match innerCodes mem with
      | [] => []
      | x :: xs => rangesBehind (zerosInCode mem) mem.length (x + 1) xs := by
  have hcodes := codesFrom_startCodes mem
  rw [innerCodes_eq, annexBSlices]
  cases hq : startCodes mem with
  | nil => rfl
  | cons q qs =>
    rw [hq] at hcodes
    exact slicesBehind_eq hcodes

theorem length_slicesBehind (qs : List Nat) : (slicesBehind mem qs).length = qs.length := by
  induction qs with
  | nil => rfl
  | cons q qs ih => rw [slicesBehind_cons, List.length_cons, List.length_cons, ih]

/-- What `splitIntoNals` takes off for a start code is what `find_next_nal` does. -/
theorem zerosTaken_eq_zerosInCode_iff (hx : 2 ≤ zeroRun mem 0 x) :
    zerosTaken mem x = zerosInCode mem x ↔ zeroRun mem 0 x = 2 ∨ zeroRun mem 0 x % 256 = 3 := by
  unfold zerosTaken zerosInCode
  split_ifs <;> omega

end Codes

/-! ## When they agree -/

/-- The bytes have a start code with a byte behind it; a counter of one byte sees the first of
these, each later one has two zeros or three for such a counter, and it does not see one at the
very end. -/
structure CutAlike (mem : List UInt8) : Prop where
  someCode : innerCodes mem ≠ []
  first : ∀ x ∈ (innerCodes mem).head?, 2 ≤ zeroRun mem 0 x % 256
  later : ∀ x ∈ (innerCodes mem).tail, zeroRun mem 0 x = 2 ∨ zeroRun mem 0 x % 256 = 3
  last : ∀ x ∈ Util.startCodes mem 0, x + 1 = mem.length → zeroRun mem 0 x % 256 < 2

section Agreement

variable {mem : List UInt8}

theorem seenCodes_eq_innerCodes_iff :
    seenCodes mem 0 = innerCodes mem ↔
      ∀ x ∈ Util.startCodes mem 0, 2 ≤ zeroRun mem 0 x % 256 ↔ x + 1 < mem.length := by
  rw [Util.seenCodes_eq_filter, innerCodes]
  constructor
  · intro heq x hx
    have hmem : x ∈ (Util.startCodes mem 0).filter (fun x => 2 ≤ zeroRun mem 0 x % 256) ↔
        x ∈ (Util.startCodes mem 0).filter (· + 1 < mem.length) := by
      rw [heq]
    simpa only [List.mem_filter, hx, true_and, decide_eq_true_eq] using hmem
  · intro h
    refine List.filter_congr fun x hx => ?_
    rw [decide_eq_decide]
    exact h x hx

theorem cutAlike_iff :
    CutAlike mem ↔ innerCodes mem ≠ [] ∧ seenCodes mem 0 = innerCodes mem ∧
      ∀ x ∈ (innerCodes mem).tail, zerosTaken mem x = zerosInCode mem x := by
  have hzeros : ∀ x ∈ innerCodes mem, 2 ≤ zeroRun mem 0 x := fun x hx =>
    (mem_startCodes_iff.mp (List.mem_filter.mp hx).1).2
  have htail : ∀ x ∈ (innerCodes mem).tail,
      zerosTaken mem x = zerosInCode mem x ↔ zeroRun mem 0 x = 2 ∨ zeroRun mem 0 x % 256 = 3 :=
    fun x hx => zerosTaken_eq_zerosInCode_iff (hzeros x (List.mem_of_mem_tail hx))
  rw [seenCodes_eq_innerCodes_iff]
  constructor
  · intro h
    refine ⟨h.someCode, fun x hx => ?_, fun x hx => (htail x hx).mpr (h.later x hx)⟩
    have hlt : x < mem.length := (List.getElem?_eq_some_iff.mp (mem_startCodes_iff.mp hx).1).1
    rcases Nat.eq_or_lt_of_le (Nat.succ_le_of_lt hlt) with hend | hinside
    · have hunseen := h.last x hx hend
      omega
    · have hx' : x ∈ innerCodes mem := List.mem_filter.mpr ⟨hx, decide_eq_true hinside⟩
      refine iff_of_true ?_ hinside
      cases hcodes : innerCodes mem with
      | nil => exact absurd hcodes h.someCode
      | cons y ys =>
        rw [hcodes] at hx'
        rcases List.mem_cons.mp hx' with rfl | hy
        · exact h.first x (by rw [hcodes]; rfl)
        · have hlater := h.later x (by rw [hcodes]; exact hy)
          omega
  · rintro ⟨hne, hseen, hlater⟩
    refine ⟨hne, fun x hx => ?_, fun x hx => (htail x hx).mp (hlater x hx), fun x hx hend => ?_⟩
    · obtain ⟨hcode, hinside⟩ := List.mem_filter.mp (List.mem_of_mem_head? hx)
      exact (hseen x hcode).mpr (of_decide_eq_true hinside)
    · have hunseen := mt (hseen x hx).mp (by omega)
      omega

theorem ranges_eq_iff (c : Chunk) (startLen : UInt8) :
    (splitIntoNals c startLen).map nalRange =
        (annexBSlices c.bytes).map (fun s => ((s.1 : Int), (s.2 : Int))) ↔
      CutAlike c.bytes := by
  rw [Util.splitIntoNals_ranges, annexBSlices_ranges, cutAlike_iff]
  cases hinner : innerCodes c.bytes with
  | nil =>
    refine iff_of_false ?_ fun h => h.1 rfl
    cases seenCodes c.bytes 0 with
    | nil => exact List.cons_ne_nil _ _
    | cons x xs => exact Util.rangesBehind_ne_nil
  | cons y ys =>
    cases seenCodes c.bytes 0 with
    | nil =>
      refine iff_of_false (fun heq => ?_) fun h => List.cons_ne_nil y ys h.2.1.symm
      have hstart := (@Util.rangesBehind_inj (fun _ => 0) _ _ 0 (y + 1) [] ys).mp heq
      exact absurd hstart.1 (by omega)
    | cons x xs =>
      rw [Util.rangesBehind_inj, List.cons.injEq, List.tail_cons]
      constructor
      · rintro ⟨hstart, rfl, hzeros⟩
        exact ⟨List.cons_ne_nil _ _, ⟨Nat.succ.inj hstart, rfl⟩, hzeros⟩
      · rintro ⟨-, ⟨rfl, rfl⟩, hzeros⟩
        exact ⟨rfl, rfl, hzeros⟩

theorem nalRange_injective : Function.Injective nalRange := by
  rintro ⟨size, place⟩ ⟨size', place'⟩ heq
  obtain ⟨hplace, hend⟩ := Prod.mk.inj heq
  dsimp only at hplace hend
  subst hplace
  obtain rfl : size = size' := by omega
  rfl

/-- The sizes and places of slices have their ranges. -/
theorem map_nalRange_slices (mem : List UInt8) :
    ((annexBSlices mem).map fun s => (s.2 - s.1, (s.1 : Int))).map nalRange =
      (annexBSlices mem).map fun s => ((s.1 : Int), (s.2 : Int)) := by
  rw [List.map_map]
  refine List.map_congr_left fun s hs => ?_
  obtain ⟨-, hle, -⟩ := (slicesBehind_ordered (codesFrom_startCodes mem)).1 s hs
  change ((s.1 : Int), (s.1 : Int) + ((s.2 - s.1 : Nat) : Int)) = _
  congr 1
  omega

/-- The calls of `find_next_nal` return sizes and places of NAL units, and then null pairs; they
are those that `splitIntoNals` pushes if and only if the start codes are of a kind that both
see and take for as long. -/
theorem splitters_agree_iff (c : Chunk) (startLen : UInt8) :
    ∃ nals : List (Nat × Nat),
      (∀ base k, calls (findNextNal base c.bytes) (nals.length + (k + 1)) {} =
        .ok (nals.map (fun nal => (nal.1, some nal.2)) ++ List.replicate (k + 1) (0, none))) ∧
      (splitIntoNals c startLen = nals.map (fun nal => (nal.1, (nal.2 : Int))) ↔
        CutAlike c.bytes) := by
  refine ⟨(annexBSlices c.bytes).map fun s => (s.2 - s.1, s.1), fun base k => ?_, ?_⟩
  · have hcalls := calls_init 0 base c.bytes k
    rw [List.length_map, annexBSlices, length_slicesBehind, List.map_map]
    exact hcalls
  · rw [← ranges_eq_iff c startLen, ← map_nalRange_slices, List.map_map,
      (List.map_injective_iff.mpr nalRange_injective).eq_iff]
    rfl

end Agreement

end RtpBenchmarks.Live555
