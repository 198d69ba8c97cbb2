import Mathlib.Data.Nat.Bitwise
import RtpBenchmarks.Foundation.Bytes

set_option autoImplicit false

/-!
# Foundation: the zero byte of a word

The test `(x - 0x01010101) & ~x & 0x80808080` looks at the four bytes of a word at
once.  Subtracting one from each byte borrows first at the lowest zero byte, whose
top bit the subtraction sets and `~x` keeps; so a word with a zero byte always
passes the test.
-/

namespace RtpBenchmarks.Foundation

/-- The word with bytes `b0`, `b1`, `b2`, `b3` in memory, least significant first. -/
def wordOf (b0 b1 b2 b3 : UInt8) : UInt32 :=
  UInt32.ofNat (b0.toNat + 256 * b1.toNat + 65536 * b2.toNat + 16777216 * b3.toNat)

/-- `(x - 0x01010101) & (~x) & 0x80808080`. -/
def zeroByteTest (x : UInt32) : UInt32 := (x - 0x01010101) &&& ~~~x &&& 0x80808080

/-- The test sees the bit `j` where the constant has one, the word has none and the
difference does. -/
theorem zeroByteTest_ne_zero {x : UInt32} {j : Nat} (hj : j < 32)
    (hmask : Nat.testBit 0x80808080 j = true) (hx : x.toNat.testBit j = false)
    (hsub : (x - 0x01010101).toNat.testBit j = true) : zeroByteTest x ≠ 0 := by
  intro h
  have hbit : (zeroByteTest x).toNat.testBit j = true := by
    have hnot : (~~~x).toNat.testBit j = true := by
      rw [UInt32.toNat_not, show UInt32.size - 1 - x.toNat = 2 ^ 32 - (x.toNat + 1) by
        have : UInt32.size = 2 ^ 32 := rfl
        omega, Nat.testBit_two_pow_sub_succ x.toNat_lt]
      simp [hj, hx]
    simp only [zeroByteTest, UInt32.toNat_and, Nat.testBit_and, hsub, hnot, Bool.true_and]
    exact hmask
  rw [h] at hbit
  simp at hbit

/-- A word with a zero byte passes the test. -/
theorem zeroByteTest_of_zero {b0 b1 b2 b3 : UInt8}
    (h : b0 = 0 ∨ b1 = 0 ∨ b2 = 0 ∨ b3 = 0) : zeroByteTest (wordOf b0 b1 b2 b3) ≠ 0 := by
  have l0 := b0.toNat_lt
  have l1 := b1.toNat_lt
  have l2 := b2.toNat_lt
  have l3 := b3.toNat_lt
  have hword : (wordOf b0 b1 b2 b3).toNat
      = b0.toNat + 256 * b1.toNat + 65536 * b2.toNat + 16777216 * b3.toNat := by
    rw [wordOf, UInt32.toNat_ofNat']
    exact Nat.mod_eq_of_lt (by omega)
  have hsub : (wordOf b0 b1 b2 b3 - 0x01010101).toNat
      = (2 ^ 32 - 16843009 + (wordOf b0 b1 b2 b3).toNat) % 2 ^ 32 := UInt32.toNat_sub _ _
  have hzero : ∀ b : UInt8, b = 0 ↔ b.toNat = 0 := fun b => by
    rw [← UInt8.toNat_inj]
    rfl
  simp only [hzero] at h
  -- the lowest zero byte decides
  by_cases h0 : b0.toNat = 0
  · apply zeroByteTest_ne_zero (j := 7) (by decide) (by decide)
    · rw [Nat.testBit_eq_decide_div_mod_eq, hword]
      simp only [decide_eq_false_iff_not]
      omega
    · rw [Nat.testBit_eq_decide_div_mod_eq, hsub, hword]
      simp only [decide_eq_true_eq]
      omega
  · by_cases h1 : b1.toNat = 0
    · apply zeroByteTest_ne_zero (j := 15) (by decide) (by decide)
      · rw [Nat.testBit_eq_decide_div_mod_eq, hword]
        simp only [decide_eq_false_iff_not]
        omega
      · rw [Nat.testBit_eq_decide_div_mod_eq, hsub, hword]
        simp only [decide_eq_true_eq]
        omega
    · by_cases h2 : b2.toNat = 0
      · apply zeroByteTest_ne_zero (j := 23) (by decide) (by decide)
        · rw [Nat.testBit_eq_decide_div_mod_eq, hword]
          simp only [decide_eq_false_iff_not]
          omega
        · rw [Nat.testBit_eq_decide_div_mod_eq, hsub, hword]
          simp only [decide_eq_true_eq]
          omega
      · apply zeroByteTest_ne_zero (j := 31) (by decide) (by decide)
        · rw [Nat.testBit_eq_decide_div_mod_eq, hword]
          simp only [decide_eq_false_iff_not]
          omega
        · rw [Nat.testBit_eq_decide_div_mod_eq, hsub, hword]
          simp only [decide_eq_true_eq]
          omega

end RtpBenchmarks.Foundation
