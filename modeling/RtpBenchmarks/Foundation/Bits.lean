import Mathlib.Data.Nat.Bitwise
import Mathlib.Tactic.IntervalCases

set_option autoImplicit false

/-!
# Foundation: bytes bit by bit

Fields packed into bytes by shifts and masks are compared bit by bit.  A field
`b` of width `k` is the hypothesis `b.toNat < 2 ^ k`; `bit_eq_false` turns it into
the fact that the bits from `k` on are clear.
-/

namespace RtpBenchmarks.Foundation

/-- Bytes with the same eight bits are equal. -/
theorem eq_of_bits {a b : UInt8}
    (h : ∀ i (hi : i < 8), a.toBitVec[i] = b.toBitVec[i]) : a = b := by
  apply UInt8.toBitVec_inj.mp
  apply BitVec.eq_of_getElem_eq
  exact h

/-- The bits above a field's width are clear. -/
theorem bit_eq_false {a : UInt8} {k : Nat} (h : a.toNat < 2 ^ k) (i : Nat) (hi : i < 8)
    (hk : k ≤ i) : a.toBitVec[i] = false := by
  rw [BitVec.getElem_eq_testBit_toNat]
  exact Nat.testBit_lt_two_pow
    (Nat.lt_of_lt_of_le h (Nat.pow_le_pow_right (by omega) hk))

/-- Masking to `k` bits gives a field of width `k`. -/
theorem width_and {a m : UInt8} {k : Nat} (hm : m.toNat < 2 ^ k) :
    (a &&& m).toNat < 2 ^ k := by
  rw [UInt8.toNat_and]
  exact Nat.lt_of_le_of_lt Nat.and_le_right hm

end RtpBenchmarks.Foundation
