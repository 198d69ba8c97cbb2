import Mathlib.Algebra.Group.Nat.Defs
import Mathlib.Algebra.Ring.Int.Defs
import Mathlib.Data.List.Range
import RtpBenchmarks.Foundation.TrailingRuns

set_option autoImplicit false

/-!
# The start code scanner of the chunks (`get_next_frame_start`, `util/util.cc`)

The scanner counts zero bytes and stops at a 01 behind two or more of them.  The counter
and the size of the start code are bytes: from 255 zeros on the size is wrong, and behind a
multiple of 256 zeros, or one more, the start code is not seen.
-/

namespace RtpBenchmarks.Util

open RtpBenchmarks.Foundation

/-! ## The code -/

/-- The loop of `get_next_frame_start` from the byte at `pos` on: the position returned and
`start_len`. -/
def scanFrom (zeros : UInt8) (pos : Nat) : List UInt8 → Option (Nat × UInt8)
  | [] => none
  | b :: bs =>
    if 2 ≤ zeros ∧ b = 1 then some (pos + 1, zeros + 1)
    else scanFrom (if b = 0 then zeros + 1 else 0) (pos + 1) bs

/-- `get_next_frame_start`: what is returned, as an `int`, and `start_len`, which stays as
it is where nothing is found. -/
def getNextFrameStart (data : List UInt8) (offset : Nat) (startLen : UInt8) : Int × UInt8 :=
  match scanFrom 0 offset (data.drop offset) with
  | some (pos, startLen) => ((pos : Int).bmod (2 ^ 32), startLen)
  | none => (-1, startLen)

/-- A chunk whose positions an `int` can hold. -/
structure Chunk where
  bytes : List UInt8
  small : bytes.length < 2 ^ 31

/-! ## Start codes -/

/-- The zero bytes right before `data[x]`, counted from `offset`. -/
def zeroRun (data : List UInt8) (offset x : Nat) : Nat :=
  runBefore (· == 0) data offset x

/-- The positions of a 01 before which the number of zeros meets `q`. -/
def codes (q : Nat → Bool) (data : List UInt8) (offset : Nat) : List Nat :=
  (List.range data.length).filter fun x => data[x]? = some 1 ∧ q (zeroRun data offset x)

/-- The start codes from `offset` on: where their 01 is. -/
def startCodes (data : List UInt8) (offset : Nat) : List Nat :=
  codes (2 ≤ ·) data offset

/-- The start codes that a counter of one byte sees. -/
def seenCodes (data : List UInt8) (offset : Nat) : List Nat :=
  codes (2 ≤ · % 256) data offset

example : startCodes [0, 0, 1, 5, 0, 0, 0, 1, 7, 0, 1] 0 = [2, 7] := by decide

/-- The result is the position behind the first start code from `offset` on and the size of
the start code, or -1 where there is none. -/
def FindsNext (data : List UInt8) (offset : Nat) (result : Int × UInt8) : Prop :=
  match (startCodes data offset).head? with
  | some x => result.1 = x + 1 ∧ result.2.toNat = zeroRun data offset x + 1
  | none => result.1 = -1

section Codes

variable {q : Nat → Bool} {data : List UInt8} {offset x : Nat} {xs : List Nat}

theorem mem_codes :
    x ∈ codes q data offset ↔ data[x]? = some 1 ∧ q (zeroRun data offset x) = true := by
  simp only [codes, List.mem_filter, List.mem_range, decide_eq_true_eq, and_iff_right_iff_imp]
  exact fun h => (List.getElem?_eq_some_iff.mp h.1).1

theorem zeroRun_le : zeroRun data offset x ≤ x - offset :=
  runBefore_le

/-- A code lies behind `offset`. -/
theorem lt_of_mem_codes (hq : q 0 = false) (hx : x ∈ codes q data offset) : offset < x := by
  by_contra hle
  have hmem := (mem_codes.mp hx).2
  rw [zeroRun, runBefore_eq_zero (Nat.not_lt.mp hle), hq] at hmem
  cases hmem

/-- Behind a 01 the zeros are counted as before it. -/
theorem zeroRun_behind {y : Nat} (hx : data[x]? = some 1) (hle : offset ≤ x) (hy : x < y) :
    zeroRun data (x + 1) y = zeroRun data offset y :=
  runBefore_behind hx (by decide) hle hy

/-- The codes from a 01 on are those behind it. -/
theorem codes_behind (hq : q 0 = false) (hx : data[x]? = some 1) (hle : offset ≤ x) :
    codes q data (x + 1) = (codes q data offset).filter (x < ·) := by
  simp only [codes, List.filter_filter]
  refine List.filter_congr fun y _ => ?_
  by_cases hy : x < y
  · rw [zeroRun_behind hx hle hy]
    simp [hy]
  · rw [zeroRun, runBefore_eq_zero (by omega)]
    simp [hq, hy]

theorem codes_pairwise : (codes q data offset).Pairwise (· < ·) :=
  List.pairwise_lt_range.filter _

/-- The codes from behind the first code on are the others. -/
theorem codes_cons (hq : q 0 = false) (h : codes q data offset = x :: xs) :
    codes q data (x + 1) = xs := by
  have hmem : x ∈ codes q data offset := by
    rw [h]
    exact List.mem_cons_self
  have hpair := @codes_pairwise q data offset
  rw [h] at hpair
  rw [codes_behind hq (mem_codes.mp hmem).1 (Nat.le_of_lt (lt_of_mem_codes hq hmem)), h,
    List.filter_cons_of_neg (by simp)]
  exact List.filter_eq_self.mpr fun y hy => by simpa using (List.pairwise_cons.mp hpair).1 y hy

/-- What the counter sees of the start codes. -/
theorem seenCodes_eq_filter (data : List UInt8) (offset : Nat) :
    seenCodes data offset =
      (startCodes data offset).filter fun x => 2 ≤ zeroRun data offset x % 256 := by
  simp only [seenCodes, startCodes, codes, List.filter_filter]
  refine List.filter_congr fun y _ => ?_
  have hmod := Nat.mod_le (zeroRun data offset y) 256
  simp only [decide_eq_true_eq, Bool.decide_and]
  by_cases hone : data[y]? = some 1
  · by_cases hseen : 2 ≤ zeroRun data offset y % 256
    · simp [hone, hseen, hseen.trans hmod]
    · simp [hseen]
  · simp [hone]

end Codes

/-! ## The scanner -/

section Scanner

variable {data : List UInt8} {offset pos x : Nat} {b : UInt8} {bs : List UInt8}

/-- The counter after a byte. -/
theorem counter_succ (hle : offset ≤ pos) (hb : data[pos]? = some b) :
    (if b = 0 then UInt8.ofNat (zeroRun data offset pos) + 1 else 0) =
      UInt8.ofNat (zeroRun data offset (pos + 1)) := by
  rw [zeroRun, zeroRun, runBefore_succ hle hb]
  by_cases hzero : b = 0
  · simp [hzero]
  · simp [hzero]

/-- The loop stops at the first code that the counter sees. -/
theorem scanFrom_eq (hle : offset ≤ pos) (hbs : data.drop pos = bs) :
    scanFrom (UInt8.ofNat (zeroRun data offset pos)) pos bs =
      ((List.range' pos bs.length).find? fun x =>
          data[x]? = some 1 ∧ 2 ≤ zeroRun data offset x % 256).map
        fun x => (x + 1, UInt8.ofNat (zeroRun data offset x + 1)) := by
  induction bs generalizing pos with
  | nil => rfl
  | cons b bs ih =>
    have hb : data[pos]? = some b := by
      rw [← Nat.add_zero pos, ← List.getElem?_drop, hbs]
      rfl
    have hrest : data.drop (pos + 1) = bs := by rw [← List.drop_drop, hbs]; rfl
    have hseen : 2 ≤ UInt8.ofNat (zeroRun data offset pos) ∧ b = 1 ↔
        data[pos]? = some 1 ∧ 2 ≤ zeroRun data offset pos % 256 := by
      rw [hb, Option.some.injEq, and_comm, UInt8.le_iff_toNat_le, UInt8.toNat_ofNat']
      rfl
    rw [scanFrom, List.length_cons, List.range'_succ, List.find?_cons]
    simp only [hseen]
    by_cases hcode : data[pos]? = some 1 ∧ 2 ≤ zeroRun data offset pos % 256
    · rw [if_pos hcode]
      simp [hcode]
    · rw [if_neg hcode, counter_succ hle hb, ih (by omega) hrest]
      simp [hcode]

/-- Positions up to `offset` may be left out where none of them counts. -/
theorem find?_range_eq {P : Nat → Bool} (n : Nat) (hP : ∀ x < offset, P x = false) :
    (List.range n).find? P = (List.range' offset (n - offset)).find? P := by
  have hfront : ∀ m ≤ offset, (List.range m).find? P = none := fun m hm =>
    List.find?_eq_none.mpr fun x hx => by simp [hP x ((List.mem_range.mp hx).trans_le hm)]
  by_cases hle : offset ≤ n
  · have hsplit : List.range n = List.range offset ++ List.range' offset (n - offset) := by
      have happend := @List.range'_append_1 0 offset (n - offset)
      rw [Nat.zero_add, Nat.add_sub_cancel' hle] at happend
      rw [List.range_eq_range', List.range_eq_range', happend]
    rw [hsplit, List.find?_append, hfront offset (Nat.le_refl offset), Option.none_or]
  · rw [hfront n (by omega), Nat.sub_eq_zero_of_le (by omega)]
    rfl

/-- The scanner finds the first of the codes seen. -/
theorem scanFrom_head (data : List UInt8) (offset : Nat) :
    scanFrom 0 offset (data.drop offset) = (seenCodes data offset).head?.map
      fun x => (x + 1, UInt8.ofNat (zeroRun data offset x + 1)) := by
  have hscan := scanFrom_eq (Nat.le_refl offset) (Eq.refl (data.drop offset))
  rw [zeroRun, runBefore_eq_zero (Nat.le_refl offset), List.length_drop,
    ← find?_range_eq] at hscan
  · rw [seenCodes, codes, List.head?_filter]
    simpa using hscan
  · intro x hx
    rw [zeroRun, runBefore_eq_zero (Nat.le_of_lt hx)]
    simp

variable {startLen : UInt8}

/-- What `get_next_frame_start` returns of a chunk. -/
theorem getNextFrameStart_eq (c : Chunk) (offset : Nat) (startLen : UInt8) :
    getNextFrameStart c.bytes offset startLen =
      (seenCodes c.bytes offset).head?.elim (-1, startLen)
        fun x => ((x : Int) + 1, UInt8.ofNat (zeroRun c.bytes offset x + 1)) := by
  rw [getNextFrameStart, scanFrom_head]
  cases hhead : (seenCodes c.bytes offset).head? with
  | none => rfl
  | some x =>
    have hlt := (List.getElem?_eq_some_iff.mp (mem_codes.mp (List.mem_of_head? hhead)).1).1
    have hsmall := c.small
    simp only [Option.map_some, Option.elim_some, Prod.mk.injEq, and_true]
    rw [Int.bmod_eq_of_le (by omega) (by omega)]
    omega

/-- The result lies behind `offset`, or there is none. -/
theorem getNextFrameStart_bounds (c : Chunk) (offset : Nat) (startLen : UInt8) :
    (getNextFrameStart c.bytes offset startLen).1 = -1 ∨
      (offset : Int) < (getNextFrameStart c.bytes offset startLen).1 ∧
        (getNextFrameStart c.bytes offset startLen).1 ≤ c.bytes.length := by
  rw [getNextFrameStart_eq]
  cases hhead : (seenCodes c.bytes offset).head? with
  | none => exact .inl rfl
  | some x =>
    have hmem := List.mem_of_head? hhead
    have hlt := (List.getElem?_eq_some_iff.mp (mem_codes.mp hmem).1).1
    have hbehind := lt_of_mem_codes (by decide) hmem
    rw [Option.elim_some]
    omega

theorem two_le_zeroRun (hx : x ∈ startCodes data offset) : 2 ≤ zeroRun data offset x := by
  simpa using (mem_codes.mp hx).2

/-- The start code is found with its size if and only if it has less than 255 zeros. -/
theorem findsNext_iff (c : Chunk) (offset : Nat) (startLen : UInt8) :
    FindsNext c.bytes offset (getNextFrameStart c.bytes offset startLen) ↔
      ∀ x ∈ (startCodes c.bytes offset).head?, zeroRun c.bytes offset x ≤ 254 := by
  have hseen := seenCodes_eq_filter c.bytes offset
  rw [getNextFrameStart_eq, FindsNext]
  cases hcodes : startCodes c.bytes offset with
  | nil =>
    rw [hcodes] at hseen
    simp [hseen]
  | cons x xs =>
    have hx : 2 ≤ zeroRun c.bytes offset x := two_le_zeroRun (hcodes ▸ List.mem_cons_self)
    have hbyte : ∀ y, (UInt8.ofNat (zeroRun c.bytes offset y + 1)).toNat =
        (zeroRun c.bytes offset y + 1) % 256 := fun y => UInt8.toNat_ofNat'
    rw [hcodes] at hseen
    simp only [List.head?_cons, Option.mem_def, Option.some.injEq, forall_eq']
    constructor
    · cases hhead : (seenCodes c.bytes offset).head? with
      | none =>
        rintro ⟨hpos, -⟩
        rw [Option.elim_none] at hpos
        omega
      | some y =>
        -- what is found is the first start code, with a size that a byte can hold
        rintro ⟨hpos, hlen⟩
        rw [Option.elim_some] at hpos hlen
        obtain rfl : y = x := by omega
        rw [hbyte] at hlen
        omega
    · intro hle
      have hmod : 2 ≤ zeroRun c.bytes offset x % 256 := by omega
      rw [List.filter_cons_of_pos (by simpa using hmod)] at hseen
      rw [hseen]
      refine ⟨rfl, (hbyte x).trans ?_⟩
      omega

end Scanner

end RtpBenchmarks.Util
