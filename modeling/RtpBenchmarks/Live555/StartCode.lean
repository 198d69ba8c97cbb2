import RtpBenchmarks.Foundation.Swar

set_option autoImplicit false

/-!
# Live555: the start code scanner (`ff_avc_find_startcode`)

The scanner looks for the bytes 00 00 01 in three loops: byte by byte up to the first
word boundary, word by word while two bytes behind the word are in reach, and byte by
byte again for the tail.  `end` is moved back by three before the first and before the
second loop and forward by three before the third, so it can lie before the start of a
short file; it is an integer here.

A pointer into the mapped file is its offset, and `base` is the address of the mapping:
it decides how many bytes come before the first word boundary, and nothing else.  Reads
outside the file are faults.

The loops are proved against one specification, `Scanned`: the first start code from
where the loop began, or none up to where it stopped.
-/

namespace RtpBenchmarks.Live555

open RtpBenchmarks.Foundation

/-! ## The code -/

/-- Where a loop of the scanner ends: at a start code it returns, or with the cursor
where its condition fails. -/
inductive Scan where
  | found (q : Nat)
  | stopped (p : Nat)
  deriving DecidableEq, Repr, Inhabited

/-- `p[0] == 0 && p[1] == 0 && p[2] == 1`. -/
def startsHere (mem : List UInt8) (p : Nat) : Except MemFault Bool := do
  let p0 ← loadByte mem p
  if p0 ≠ 0 then return false
  let p1 ← loadByte mem (p + 1)
  if p1 ≠ 0 then return false
  let p2 ← loadByte mem (p + 2)
  return p2 = 1

/-- The first and the third loop, byte by byte up to `stop`. -/
@[semireducible] def byteLoop (mem : List UInt8) (stop : Int) (p : Nat) :
    Except MemFault Scan :=
  if (p : Int) < stop then
    match startsHere mem p with
    | .error f => .error f
    | .ok true => .ok (.found p)
    | .ok false => byteLoop mem stop (p + 1)
  else .ok (.stopped p)
termination_by (stop - p).toNat

/-- The body of the second loop: a start code that begins in the word at `p`. -/
def wordStep (mem : List UInt8) (p : Nat) : Except MemFault (Option Nat) := do
  let p0 ← loadByte mem p
  let p1 ← loadByte mem (p + 1)
  let p2 ← loadByte mem (p + 2)
  let p3 ← loadByte mem (p + 3)
  if zeroByteTest (wordOf p0 p1 p2 p3) = 0 then return none
  if p1 = 0 ∧ p0 = 0 ∧ p2 = 1 then return some p
  if p1 = 0 ∧ p2 = 0 ∧ p3 = 1 then return some (p + 1)
  if p3 ≠ 0 then return none
  let p4 ← loadByte mem (p + 4)
  if p2 = 0 ∧ p4 = 1 then return some (p + 2)
  if p4 ≠ 0 then return none
  let p5 ← loadByte mem (p + 5)
  if p5 = 1 then return some (p + 3)
  return none

/-- The second loop, word by word up to `stop`. -/
@[semireducible] def wordLoop (mem : List UInt8) (stop : Int) (p : Nat) :
    Except MemFault Scan :=
  if (p : Int) < stop then
    match wordStep mem p with
    | .error f => .error f
    | .ok (some q) => .ok (.found q)
    | .ok none => wordLoop mem stop (p + 4)
  else .ok (.stopped p)
termination_by (stop - p).toNat

/-- `ff_avc_find_startcode_internal(p, end)` in a file mapped at `base`. -/
def ffAvcFindStartcodeInternal (base : Nat) (mem : List UInt8) (p : Nat) (end_ : Int) :
    Except MemFault Nat := do
  let a := p + 4 - (base + p) % 4
  let end_ := end_ - 3
  match ← byteLoop mem (min (a : Int) end_) p with
  | .found q => return q
  | .stopped p =>
    let end_ := end_ - 3
    match ← wordLoop mem end_ p with
    | .found q => return q
    | .stopped p =>
      let end_ := end_ + 3
      match ← byteLoop mem end_ p with
      | .found q => return q
      | .stopped _ => return (end_ + 3).toNat

/-- `ff_avc_find_startcode(p, end)`. -/
def ffAvcFindStartcode (base : Nat) (mem : List UInt8) (p end_ : Nat) :
    Except MemFault Nat := do
  let out ← ffAvcFindStartcodeInternal base mem p end_
  if p < out ∧ out < end_ then
    let b ← loadByte mem (out - 1)
    return if b = 0 then out - 1 else out
  else return out

/-! ## Start codes -/

/-- The bytes 00 00 01 are at `q` and more follows. -/
def StartCodeAt (mem : List UInt8) (q : Nat) : Prop :=
  q + 3 < mem.length ∧ mem[q]? = some 0 ∧ mem[q + 1]? = some 0 ∧ mem[q + 2]? = some 1

instance (mem : List UInt8) (q : Nat) : Decidable (StartCodeAt mem q) :=
  inferInstanceAs (Decidable (_ ∧ _ ∧ _ ∧ _))

/-- No start code from `p` on before `q`. -/
def Clear (mem : List UInt8) (p q : Nat) : Prop :=
  ∀ x, p ≤ x → x < q → ¬ StartCodeAt mem x

/-- What a loop that starts at `p` and goes up to `stop` finds. -/
def Scanned (mem : List UInt8) (p : Nat) (stop : Int) : Scan → Prop
  | .found q => p ≤ q ∧ StartCodeAt mem q ∧ Clear mem p q
  | .stopped p' => p ≤ p' ∧ stop ≤ p' ∧ Clear mem p p'

theorem Clear.refl (mem : List UInt8) (p : Nat) : Clear mem p p :=
  fun _ h h' => absurd h' (Nat.not_lt.mpr h)

theorem Clear.trans {mem : List UInt8} {p q r : Nat} (h : Clear mem p q)
    (h' : Clear mem q r) : Clear mem p r := by
  intro x hp hr
  by_cases hq : x < q
  · exact h x hp hq
  · exact h' x (Nat.not_lt.mp hq) hr

theorem Clear.succ {mem : List UInt8} {p : Nat} (h : ¬ StartCodeAt mem p) :
    Clear mem p (p + 1) := by
  intro x hp hx
  obtain rfl : x = p := by omega
  exact h

/-- What is found behind a clear stretch is found from its start. -/
theorem Scanned.of_clear {mem : List UInt8} {p q : Nat} {stop : Int} {s : Scan}
    (hpq : p ≤ q) (hclear : Clear mem p q) (h : Scanned mem q stop s) :
    Scanned mem p stop s := by
  cases s with
  | found r =>
    obtain ⟨hle, hcode, hrest⟩ := h
    exact ⟨Nat.le_trans hpq hle, hcode, hclear.trans hrest⟩
  | stopped r =>
    obtain ⟨hle, hstop, hrest⟩ := h
    exact ⟨Nat.le_trans hpq hle, hstop, hclear.trans hrest⟩

/-! ## The loops -/

section Loops

variable {mem : List UInt8} {p : Nat} {stop : Int}

/-- The byte test is the start code, as long as more follows. -/
theorem startsHere_eq (h : p + 3 < mem.length) :
    startsHere mem p = .ok (decide (StartCodeAt mem p)) := by
  have h0 : p < mem.length := by omega
  have h1 : p + 1 < mem.length := by omega
  have h2 : p + 2 < mem.length := by omega
  unfold startsHere
  rw [loadByte_of_lt h0, ok_bind, loadByte_of_lt h1, loadByte_of_lt h2]
  simp only [StartCodeAt, List.getElem?_eq_getElem h0, List.getElem?_eq_getElem h1,
    List.getElem?_eq_getElem h2, h, Option.some.injEq, true_and]
  by_cases e0 : mem[p] = 0
  · by_cases e1 : mem[p + 1] = 0
    · simp [e0, e1, pure, Except.pure]
    · simp [e0, e1, pure, Except.pure]
  · simp [e0, pure, Except.pure]

theorem byteLoop_scanned (hstop : stop ≤ (mem.length : Int) - 3) :
    ∃ s, byteLoop mem stop p = .ok s ∧ Scanned mem p stop s := by
  fun_induction byteLoop mem stop p with
  | case1 p hlt f hf =>
    rw [startsHere_eq (by omega)] at hf
    cases hf
  | case2 p hlt hcode =>
    rw [startsHere_eq (by omega)] at hcode
    have hcode := of_decide_eq_true (Except.ok.inj hcode)
    exact ⟨_, rfl, Nat.le_refl p, hcode, .refl mem p⟩
  | case3 p hlt hcode ih =>
    rw [startsHere_eq (by omega)] at hcode
    have hcode := of_decide_eq_false (Except.ok.inj hcode)
    obtain ⟨s, hs, hscan⟩ := ih
    exact ⟨s, hs, hscan.of_clear (Nat.le_succ p) (.succ hcode)⟩
  | case4 p hlt => exact ⟨_, rfl, Nat.le_refl p, Int.not_lt.mp hlt, .refl mem p⟩

/-- A start code by the bytes at its place. -/
theorem startCodeAt_iff {b0 b1 b2 : UInt8} (h : p + 3 < mem.length)
    (h0 : mem[p]? = some b0) (h1 : mem[p + 1]? = some b1) (h2 : mem[p + 2]? = some b2) :
    StartCodeAt mem p ↔ b0 = 0 ∧ b1 = 0 ∧ b2 = 1 := by
  simp [StartCodeAt, h, h0, h1, h2]

theorem Clear.four (h0 : ¬ StartCodeAt mem p) (h1 : ¬ StartCodeAt mem (p + 1))
    (h2 : ¬ StartCodeAt mem (p + 2)) (h3 : ¬ StartCodeAt mem (p + 3)) :
    Clear mem p (p + 4) :=
  (Clear.succ h0).trans ((Clear.succ h1).trans ((Clear.succ h2).trans (.succ h3)))

/-- The word test finds the first start code that begins in the word. -/
theorem wordStep_eq (h : p + 6 < mem.length) :
    (∃ q, wordStep mem p = .ok (some q) ∧ p ≤ q ∧ StartCodeAt mem q ∧ Clear mem p q) ∨
      (wordStep mem p = .ok none ∧ Clear mem p (p + 4)) := by
  have hbyte : ∀ k, k < 6 → ∃ b, mem[p + k]? = some b := fun k hk =>
    ⟨_, List.getElem?_eq_getElem (by omega)⟩
  obtain ⟨b0, h0⟩ := hbyte 0 (by omega)
  obtain ⟨b1, h1⟩ := hbyte 1 (by omega)
  obtain ⟨b2, h2⟩ := hbyte 2 (by omega)
  obtain ⟨b3, h3⟩ := hbyte 3 (by omega)
  obtain ⟨b4, h4⟩ := hbyte 4 (by omega)
  obtain ⟨b5, h5⟩ := hbyte 5 (by omega)
  have c0 := startCodeAt_iff (by omega) h0 h1 h2
  have c1 := startCodeAt_iff (p := p + 1) (by omega) h1 h2 h3
  have c2 := startCodeAt_iff (p := p + 2) (by omega) h2 h3 h4
  have c3 := startCodeAt_iff (p := p + 3) (by omega) h3 h4 h5
  have htest : b1 = 0 ∨ b3 = 0 → zeroByteTest (wordOf b0 b1 b2 b3) ≠ 0 := fun h =>
    zeroByteTest_of_zero (h.elim (Or.inr ∘ Or.inl) (Or.inr ∘ Or.inr ∘ Or.inr))
  -- what each failed test rules out
  have n0 : ¬ (b1 = 0 ∧ b0 = 0 ∧ b2 = 1) → ¬ StartCodeAt mem p := fun hn h =>
    hn ⟨(c0.mp h).2.1, (c0.mp h).1, (c0.mp h).2.2⟩
  have n1 : ¬ (b1 = 0 ∧ b2 = 0 ∧ b3 = 1) → ¬ StartCodeAt mem (p + 1) := fun hn h =>
    hn (c1.mp h)
  have n2 : ¬ (b2 = 0 ∧ b4 = 1) → ¬ StartCodeAt mem (p + 2) := fun hn h =>
    hn ⟨(c2.mp h).1, (c2.mp h).2.2⟩
  unfold wordStep
  simp only [Nat.add_zero] at h0
  simp only [loadByte_eq_ok_iff.mpr h0, loadByte_eq_ok_iff.mpr h1,
    loadByte_eq_ok_iff.mpr h2, loadByte_eq_ok_iff.mpr h3, loadByte_eq_ok_iff.mpr h4,
    loadByte_eq_ok_iff.mpr h5, ok_bind]
  by_cases hz : zeroByteTest (wordOf b0 b1 b2 b3) = 0
  · -- no zero byte in the word: no start code begins at any of its bytes
    rw [if_pos hz]
    have e1 : b1 ≠ 0 := fun h => htest (Or.inl h) hz
    have e3 : b3 ≠ 0 := fun h => htest (Or.inr h) hz
    exact Or.inr ⟨rfl, .four (fun h => e1 (c0.mp h).2.1) (fun h => e1 (c1.mp h).1)
      (fun h => e3 (c2.mp h).2.1) (fun h => e3 (c3.mp h).1)⟩
  rw [if_neg hz]
  by_cases e0 : b1 = 0 ∧ b0 = 0 ∧ b2 = 1
  · rw [if_pos e0]
    exact Or.inl ⟨p, rfl, Nat.le_refl p, c0.mpr ⟨e0.2.1, e0.1, e0.2.2⟩, .refl mem p⟩
  rw [if_neg e0]
  by_cases e1 : b1 = 0 ∧ b2 = 0 ∧ b3 = 1
  · rw [if_pos e1]
    exact Or.inl ⟨p + 1, rfl, by omega, c1.mpr e1, .succ (n0 e0)⟩
  rw [if_neg e1]
  by_cases e3 : b3 = 0
  · rw [if_neg (not_not.mpr e3)]
    by_cases e2 : b2 = 0 ∧ b4 = 1
    · rw [if_pos e2]
      exact Or.inl ⟨p + 2, rfl, by omega, c2.mpr ⟨e2.1, e3, e2.2⟩,
        (Clear.succ (n0 e0)).trans (.succ (n1 e1))⟩
    rw [if_neg e2]
    by_cases e4 : b4 = 0
    · rw [if_neg (not_not.mpr e4)]
      by_cases e5 : b5 = 1
      · rw [if_pos e5]
        exact Or.inl ⟨p + 3, rfl, by omega, c3.mpr ⟨e3, e4, e5⟩,
          (Clear.succ (n0 e0)).trans ((Clear.succ (n1 e1)).trans (.succ (n2 e2)))⟩
      · rw [if_neg e5]
        exact Or.inr ⟨rfl, .four (n0 e0) (n1 e1) (n2 e2) (fun h => e5 (c3.mp h).2.2)⟩
    · rw [if_pos e4]
      exact Or.inr ⟨rfl, .four (n0 e0) (n1 e1) (n2 e2) (fun h => e4 (c3.mp h).2.1)⟩
  · rw [if_pos e3]
    exact Or.inr ⟨rfl, .four (n0 e0) (n1 e1) (fun h => e3 (c2.mp h).2.1)
      (fun h => e3 (c3.mp h).1)⟩

theorem wordLoop_scanned (hstop : stop ≤ (mem.length : Int) - 6) :
    ∃ s, wordLoop mem stop p = .ok s ∧ Scanned mem p stop s := by
  fun_induction wordLoop mem stop p with
  | case1 p hlt f hf =>
    rcases wordStep_eq (p := p) (by omega : p + 6 < mem.length) with ⟨q, hq, _⟩ | ⟨hnone, _⟩
    · rw [hf] at hq
      cases hq
    · rw [hf] at hnone
      cases hnone
  | case2 p hlt q hq =>
    rcases wordStep_eq (p := p) (by omega : p + 6 < mem.length)
      with ⟨q', hq', hscan⟩ | ⟨hnone, _⟩
    · rw [hq] at hq'
      cases hq'
      exact ⟨_, rfl, hscan⟩
    · rw [hq] at hnone
      cases hnone
  | case3 p hlt hnone ih =>
    rcases wordStep_eq (p := p) (by omega : p + 6 < mem.length) with ⟨q, hq, _⟩ | ⟨_, hclear⟩
    · rw [hnone] at hq
      cases hq
    · obtain ⟨s, hs, hscan⟩ := ih
      exact ⟨s, hs, hscan.of_clear (by omega) hclear⟩
  | case4 p hlt => exact ⟨_, rfl, Nat.le_refl p, Int.not_lt.mp hlt, .refl mem p⟩

end Loops

/-! ## The scanner -/

/-- The first start code from `p` on, or the end of the file. -/
def FirstFrom (mem : List UInt8) (p r : Nat) : Prop :=
  (StartCodeAt mem r ∧ p ≤ r ∧ Clear mem p r) ∨
    (r = mem.length ∧ ∀ x, p ≤ x → ¬ StartCodeAt mem x)

theorem FirstFrom.unique {mem : List UInt8} {p r r' : Nat} (h : FirstFrom mem p r)
    (h' : FirstFrom mem p r') : r = r' := by
  rcases h with ⟨hcode, hle, hclear⟩ | ⟨hend, hnone⟩
  · rcases h' with ⟨hcode', hle', hclear'⟩ | ⟨_, hnone'⟩
    · rcases Nat.lt_trichotomy r r' with hlt | heq | hlt
      · exact absurd hcode (hclear' r hle hlt)
      · exact heq
      · exact absurd hcode' (hclear r' hle' hlt)
    · exact absurd hcode (hnone' r hle)
  · rcases h' with ⟨hcode', hle', _⟩ | ⟨hend', _⟩
    · exact absurd hcode' (hnone r' hle')
    · rw [hend, hend']

/-- A scan of the whole rest of the file finds the first start code or none: one that
begins in the last three bytes would have nothing behind it. -/
theorem Scanned.first {mem : List UInt8} {p : Nat} {s : Scan}
    (h : Scanned mem p ((mem.length : Int) - 3) s) :
    FirstFrom mem p (match s with | .found q => q | .stopped _ => mem.length) := by
  cases s with
  | found q => exact Or.inl ⟨h.2.1, h.1, h.2.2⟩
  | stopped p' =>
    obtain ⟨hle, hstop, hclear⟩ := h
    refine Or.inr ⟨rfl, fun x hx hcode => ?_⟩
    have hlt := hcode.1
    exact hclear x hx (by omega) hcode

/-- A start code found by one of the loops is the first. -/
theorem Scanned.found_first {mem : List UInt8} {p q : Nat} {stop : Int}
    (h : Scanned mem p stop (.found q)) : FirstFrom mem p q :=
  Or.inl ⟨h.2.1, h.1, h.2.2⟩

/-- A scan that looks at every byte in turn. -/
def byteByByte (mem : List UInt8) (p : Nat) : Except MemFault Nat := do
  match ← byteLoop mem ((mem.length : Int) - 3) p with
  | .found q => return q
  | .stopped _ => return mem.length

theorem byteByByte_first (mem : List UInt8) (p : Nat) :
    ∃ r, byteByByte mem p = .ok r ∧ FirstFrom mem p r := by
  obtain ⟨s, hs, hscan⟩ := byteLoop_scanned (p := p) (Int.le_refl ((mem.length : Int) - 3))
  refine ⟨_, ?_, hscan.first⟩
  rw [byteByByte, hs, ok_bind]
  cases s <;> rfl

/-- The three loops together find the first start code, at every alignment. -/
theorem ffAvcFindStartcodeInternal_first (base : Nat) (mem : List UInt8) (p : Nat) :
    ∃ r, ffAvcFindStartcodeInternal base mem p mem.length = .ok r ∧
      FirstFrom mem p r := by
  unfold ffAvcFindStartcodeInternal
  obtain ⟨s1, h1, scan1⟩ := byteLoop_scanned (p := p)
    (Int.min_le_right (p + 4 - (base + p) % 4 : Nat) ((mem.length : Int) - 3))
  simp only [h1, ok_bind]
  cases s1 with
  | found q => exact ⟨q, rfl, scan1.found_first⟩
  | stopped p1 =>
    obtain ⟨hle1, _, clear1⟩ := scan1
    obtain ⟨s2, h2, scan2⟩ := wordLoop_scanned (p := p1)
      (by omega : (mem.length : Int) - 3 - 3 ≤ mem.length - 6)
    have scan2 := scan2.of_clear hle1 clear1
    simp only [h2, ok_bind]
    cases s2 with
    | found q => exact ⟨q, rfl, scan2.found_first⟩
    | stopped p2 =>
      obtain ⟨hle2, _, clear2⟩ := scan2
      have hstop : (mem.length : Int) - 3 - 3 + 3 = mem.length - 3 := by omega
      obtain ⟨s3, h3, scan3⟩ := byteLoop_scanned (p := p2) (Int.le_of_eq hstop)
      have scan3 := scan3.of_clear hle2 clear2
      simp only [h3, ok_bind]
      rw [hstop] at scan3
      refine ⟨_, ?_, scan3.first⟩
      cases s3 with
      | found q => rfl
      | stopped p3 =>
        have hend : ((mem.length : Int) - 3 - 3 + 3 + 3).toNat = mem.length := by omega
        rw [hend]
        rfl

/-- The word-at-a-time scan finds what a byte-by-byte scan finds. -/
theorem ffAvcFindStartcodeInternal_eq (base : Nat) (mem : List UInt8) (p : Nat) :
    ffAvcFindStartcodeInternal base mem p mem.length = byteByByte mem p := by
  obtain ⟨r, hrun, hr⟩ := ffAvcFindStartcodeInternal_first base mem p
  obtain ⟨r', hrun', hr'⟩ := byteByByte_first mem p
  rw [hrun, hrun', hr.unique hr']

/-- Where a NAL unit ends that is followed by what `FirstFrom` found: one byte earlier if
that is a start code behind a zero byte. -/
def backUp (mem : List UInt8) (p r : Nat) : Nat :=
  if p < r ∧ r < mem.length ∧ mem[r - 1]? = some 0 then r - 1 else r

/-- `ff_avc_find_startcode` takes a zero byte in front of a start code as part of
it. -/
theorem ffAvcFindStartcode_eq (base : Nat) {mem : List UInt8} {p r : Nat}
    (h : FirstFrom mem p r) :
    ffAvcFindStartcode base mem p mem.length = .ok (backUp mem p r) := by
  obtain ⟨r', hrun, hfirst⟩ := ffAvcFindStartcodeInternal_first base mem p
  obtain rfl := hfirst.unique h
  rw [ffAvcFindStartcode, hrun, ok_bind]
  unfold backUp
  by_cases hlt : p < r' ∧ r' < mem.length
  · have hb : r' - 1 < mem.length := by omega
    rw [if_pos hlt, loadByte_of_lt hb, ok_bind]
    simp only [hlt, List.getElem?_eq_getElem hb, Option.some.injEq, true_and]
    rfl
  · rw [if_neg hlt, if_neg (fun h => hlt ⟨h.1, h.2.1⟩)]
    rfl

end RtpBenchmarks.Live555
