import Mathlib.Data.List.SplitLengths
import RtpBenchmarks.Foundation.Bytes

set_option autoImplicit false

/-!
# Foundation: blocks by their sizes

A sequence of blocks is kept in two files: the blocks end to end, and beside them their
sizes as 64-bit words.  Reading the words and cutting the blocks at the offsets they add
up to gives the blocks back.

* `littleEndian n v` and `ofLittleEndian bs`: a number as it lies in memory.
* `readWords`: the words of a file, up to one that is cut off.
* `cutBlocks`: the blocks in memory, each read at the sum of the sizes before it.
-/

namespace RtpBenchmarks.Foundation

/-! ## Words -/

/-- The `n` bytes of a number, the lowest first. -/
def littleEndian : Nat → Nat → List UInt8
  | 0, _ => []
  | n + 1, v => UInt8.ofNat v :: littleEndian n (v / 256)

/-- The number that bytes denote, the lowest first. -/
def ofLittleEndian : List UInt8 → Nat
  | [] => 0
  | b :: bs => b.toNat + 256 * ofLittleEndian bs

/-- Encoding keeps exactly the low `8 * n` bits. -/
theorem ofLittleEndian_littleEndian (n v : Nat) :
    ofLittleEndian (littleEndian n v) = v % 256 ^ n := by
  induction n generalizing v with
  | zero => simp [littleEndian, ofLittleEndian, Nat.mod_one]
  | succ n ih =>
    have hb : (UInt8.ofNat v).toNat = v % 256 := by simp
    rw [littleEndian, ofLittleEndian, ih, hb, Nat.pow_succ', Nat.mod_mul]

/-- The 64-bit words of a file; what is left behind the last is ignored. -/
def readWords : List UInt8 → List Nat
  | b0 :: b1 :: b2 :: b3 :: b4 :: b5 :: b6 :: b7 :: rest =>
    ofLittleEndian [b0, b1, b2, b3, b4, b5, b6, b7] :: readWords rest
  | _ => []

/-- A word that was written is read. -/
theorem readWords_littleEndian {v : Nat} (h : v < 2 ^ 64) (rest : List UInt8) :
    readWords (littleEndian 8 v ++ rest) = v :: readWords rest := by
  have hword : ofLittleEndian (littleEndian 8 v) = v := by
    rw [ofLittleEndian_littleEndian, Nat.mod_eq_of_lt (by omega)]
  rw [← congrArg (· :: readWords rest) hword]
  rfl

/-- The words that were written are read, in order. -/
theorem readWords_flatMap {vs : List Nat} (h : ∀ v ∈ vs, v < 2 ^ 64) :
    readWords (vs.flatMap (littleEndian 8)) = vs := by
  induction vs with
  | nil => rfl
  | cons v vs ih =>
    obtain ⟨hv, hvs⟩ := List.forall_mem_cons.mp h
    rw [List.flatMap_cons, readWords_littleEndian hv, ih hvs]

/-! ## Blocks -/

variable {α : Type}

/-- Blocks end to end, cut at their sizes. -/
theorem splitLengths_flatten (blocks : List (List α)) :
    (blocks.map List.length).splitLengths blocks.flatten = blocks := by
  induction blocks with
  | nil => rfl
  | cons block blocks ih =>
    rw [List.map_cons, List.flatten_cons, List.splitLengths_cons, List.take_left, List.drop_left,
      ih]

/-- The blocks of the given sizes, read one by one behind an offset, and the offset behind
the last. -/
def cutBlocks (mem : List UInt8) (offset : Nat) :
    List Nat → Except MemFault (List (List UInt8) × Nat)
  | [] => pure ([], offset)
  | size :: sizes => do
    let block ← loadBytes mem offset size
    let (blocks, offset) ← cutBlocks mem (offset + size) sizes
    pure (block :: blocks, offset)

/-- Where the sizes fit into the memory, the blocks are its cuts. -/
theorem cutBlocks_eq {mem : List UInt8} {offset : Nat} {sizes : List Nat}
    (h : offset + sizes.sum ≤ mem.length) :
    cutBlocks mem offset sizes =
      .ok (sizes.splitLengths (mem.drop offset), offset + sizes.sum) := by
  induction sizes generalizing offset with
  | nil => rfl
  | cons size sizes ih =>
    rw [List.sum_cons] at h
    rw [cutBlocks, loadBytes_of_le (by omega), ok_bind, ih (by omega), List.splitLengths_cons,
      List.drop_drop, List.sum_cons, Nat.add_assoc]
    rfl

/-- Behind an offset inside the memory the blocks can be read exactly when they fit. -/
theorem cutBlocks_isOk_iff {mem : List UInt8} {offset : Nat} (hoffset : offset ≤ mem.length)
    (sizes : List Nat) :
    (∃ r, cutBlocks mem offset sizes = .ok r) ↔ offset + sizes.sum ≤ mem.length := by
  constructor
  · intro h
    induction sizes generalizing offset with
    | nil => exact hoffset
    | cons size sizes ih =>
      obtain ⟨r, hr⟩ := h
      obtain ⟨block, hblock, hr⟩ := bind_eq_ok_iff.mp hr
      obtain ⟨blocks, hblocks, -⟩ := bind_eq_ok_iff.mp hr
      have hlen : offset + size ≤ mem.length := by
        unfold loadBytes at hblock
        split_ifs at hblock with hfits
        exact hfits
      have hrest := ih hlen ⟨_, hblocks⟩
      rwa [List.sum_cons, ← Nat.add_assoc]
  · intro h
    exact ⟨_, cutBlocks_eq h⟩

/-! ## Blocks of one size -/

/-- Where all blocks but the last have one size, and the last is not longer, the elements alone
tell the blocks: those that others of this size begin with are the first blocks. -/
theorem take_eq_of_flatten {k : Nat} {groups blocks : List (List α)} (hk : 1 ≤ k)
    (hgroups : ∀ group ∈ groups, group.length = k)
    (hfull : ∀ block ∈ blocks.dropLast, block.length = k)
    (hlast : ∀ block ∈ blocks.getLast?, block.length ≤ k)
    (h : groups.flatten <+: blocks.flatten) : blocks.take groups.length = groups := by
  induction groups generalizing blocks with
  | nil => rfl
  | cons group groups ih =>
    obtain ⟨hgroup, hgroups⟩ := List.forall_mem_cons.mp hgroups
    rw [List.flatten_cons] at h
    cases blocks with
    | nil =>
      have hlength := h.length_le
      rw [List.length_append, hgroup, List.flatten_nil, List.length_nil] at hlength
      omega
    | cons block blocks =>
      rw [List.flatten_cons] at h
      have hle : block.length ≤ k := by
        cases blocks with
        | nil => exact hlast block rfl
        | cons next blocks => exact Nat.le_of_eq (hfull block (List.mem_cons_self ..))
      by_cases hshort : block.length = k
      · -- a whole block: it is the first group
        obtain ⟨rest, hrest⟩ := h
        rw [List.append_assoc] at hrest
        obtain ⟨rfl, htail⟩ := List.append_inj hrest (hgroup.trans hshort.symm)
        rw [List.length_cons, List.take_succ_cons]
        congr 1
        cases blocks with
        | nil =>
          cases groups with
          | nil => rfl
          | cons next groups =>
            have hnext := hgroups next (List.mem_cons_self ..)
            have hlength := congrArg List.length htail
            rw [List.flatten_cons, List.append_assoc, List.length_append, hnext, List.flatten_nil,
              List.length_nil] at hlength
            omega
        | cons next blocks =>
          rw [List.dropLast_cons_cons] at hfull
          exact ih hgroups (fun b hb => hfull b (List.mem_cons_of_mem _ hb)) hlast ⟨rest, htail⟩
      · -- a block that is not whole is the last
        have hnil : blocks = [] := by
          cases blocks with
          | nil => rfl
          | cons next blocks => exact absurd (hfull block (List.mem_cons_self ..)) hshort
        subst hnil
        have hlength := h.length_le
        rw [List.length_append, hgroup, List.flatten_nil, List.append_nil] at hlength
        omega

end RtpBenchmarks.Foundation
