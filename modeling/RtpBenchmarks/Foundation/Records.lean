import Mathlib.Algebra.Group.Nat.Defs
import RtpBenchmarks.Foundation.Blocks

set_option autoImplicit false

/-!
# Foundation: records with their size in front

A record is the size of its contents as a 64-bit word, the lowest byte first, and the
contents.  What stands at a place in memory is a record if and only if the word can be loaded
there and as many bytes behind it as it says.
-/

namespace RtpBenchmarks.Foundation

theorem length_littleEndian (n v : Nat) : (littleEndian n v).length = n := by
  induction n generalizing v with
  | zero => rfl
  | succ n ih => rw [littleEndian, List.length_cons, ih]

/-- Bytes are the number that they denote, as it lies in memory. -/
theorem littleEndian_ofLittleEndian (bs : List UInt8) :
    littleEndian bs.length (ofLittleEndian bs) = bs := by
  induction bs with
  | nil => rfl
  | cons b bs ih =>
    have hbyte := b.toNat_lt
    have hlow : UInt8.ofNat (b.toNat + 256 * ofLittleEndian bs) = b := by
      apply UInt8.toNat.inj
      rw [UInt8.toNat_ofNat']
      omega
    have hhigh : (b.toNat + 256 * ofLittleEndian bs) / 256 = ofLittleEndian bs := by
      omega
    rw [List.length_cons, ofLittleEndian, littleEndian, hlow, hhigh, ih]

theorem ofLittleEndian_lt (bs : List UInt8) : ofLittleEndian bs < 256 ^ bs.length := by
  induction bs with
  | nil => exact Nat.one_pos
  | cons b bs ih =>
    have hbyte := b.toNat_lt
    rw [ofLittleEndian, List.length_cons, Nat.pow_succ']
    omega

/-- A record of some contents. -/
def record (contents : List UInt8) : List UInt8 :=
  littleEndian 8 contents.length ++ contents

theorem length_record (contents : List UInt8) :
    (record contents).length = 8 + contents.length := by
  rw [record, List.length_append, length_littleEndian]

theorem record_ne_nil (contents : List UInt8) : record contents ≠ [] := by
  intro hnil
  have hlength := congrArg List.length hnil
  rw [length_record, List.length_nil] at hlength
  omega

section Memory

variable {mem contents tail : List UInt8} {i : Nat}

theorem loadBytes_eq_ok_iff {n : Nat} :
    loadBytes mem i n = .ok contents ↔
      i + n ≤ mem.length ∧ (mem.drop i).take n = contents := by
  unfold loadBytes
  split_ifs with hle
  · simp [hle]
  · simp [hle]

/-- A record stands at `i` when its word and its contents can be loaded. -/
theorem drop_eq_record_append_iff (hsize : contents.length < 2 ^ 64) :
    mem.drop i = record contents ++ tail ↔
      ∃ word, loadBytes mem i 8 = .ok word ∧ ofLittleEndian word = contents.length ∧
        loadBytes mem (i + 8) contents.length = .ok contents ∧
        mem.drop (i + 8 + contents.length) = tail := by
  have hword : (littleEndian 8 contents.length).length = 8 := length_littleEndian _ _
  constructor
  · intro h
    have hlength := congrArg List.length h
    rw [List.length_drop, List.length_append, length_record] at hlength
    have hbehind : mem.drop (i + 8) = contents ++ tail := by
      rw [← List.drop_drop, h, record, List.append_assoc, List.drop_left' hword]
    refine ⟨littleEndian 8 contents.length, loadBytes_eq_ok_iff.mpr ⟨by omega, ?_⟩, ?_,
      loadBytes_eq_ok_iff.mpr ⟨by omega, ?_⟩, ?_⟩
    · rw [h, record, List.append_assoc, List.take_left' hword]
    · rw [ofLittleEndian_littleEndian, Nat.mod_eq_of_lt (by omega)]
    · rw [hbehind, List.take_left]
    · rw [← List.drop_drop, hbehind, List.drop_left]
  · rintro ⟨word, hload, hnumber, hcontents, rfl⟩
    have hwidth := length_of_loadBytes hload
    obtain ⟨-, rfl⟩ := loadBytes_eq_ok_iff.mp hload
    obtain ⟨-, htake⟩ := loadBytes_eq_ok_iff.mp hcontents
    have hfield : littleEndian 8 contents.length = (mem.drop i).take 8 := by
      rw [← hnumber]
      nth_rewrite 1 [← hwidth]
      exact littleEndian_ofLittleEndian _
    calc mem.drop i
        = (mem.drop i).take 8 ++ mem.drop (i + 8) := by
          rw [← List.drop_drop, List.take_append_drop]
      _ = (mem.drop i).take 8 ++ (contents ++ mem.drop (i + 8 + contents.length)) := by
          congr 1
          nth_rewrite 1 [← List.take_append_drop contents.length (mem.drop (i + 8))]
          rw [htake, List.drop_drop]
      _ = record contents ++ mem.drop (i + 8 + contents.length) := by
          rw [record, hfield, List.append_assoc]

end Memory

end RtpBenchmarks.Foundation
