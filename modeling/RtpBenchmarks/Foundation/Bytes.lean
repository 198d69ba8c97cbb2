import Mathlib.Data.List.Basic
import Mathlib.Data.List.Induction
import Mathlib.Tactic.Ring

set_option autoImplicit false

/-!
# Foundation: big-endian numbers and bounded memory

General facts about byte sequences, shared by every format in the
development.

* `bigEndian n v` and `ofBigEndian bs`: the `n`-byte big-endian encoding of a natural
  number and its inverse.  The round trip is exact modulo `256 ^ n`, so a value
  that does not fit its field is visibly truncated.
* `loadByte`, `loadBytes`, `storeBytes`: memory of a fixed extent.  An access
  outside the extent is a `MemFault`, never a default value, so a statement that
  a program returns `ok` is also the statement that it stayed inside its buffer.
-/

namespace RtpBenchmarks.Foundation

/-! ## Big-endian numbers -/

/-- The low `8 * n` bits of `v`, most significant byte first. -/
def bigEndian : Nat → Nat → List UInt8
  | 0, _ => []
  | n + 1, v => bigEndian n (v / 256) ++ [UInt8.ofNat v]

/-- The number a big-endian byte sequence denotes. -/
def ofBigEndian (bs : List UInt8) : Nat :=
  bs.foldl (fun acc b => acc * 256 + b.toNat) 0

@[simp] theorem length_bigEndian (n v : Nat) : (bigEndian n v).length = n := by
  induction n generalizing v with
  | zero => rfl
  | succ n ih => simp [bigEndian, ih]

@[simp] theorem ofBigEndian_nil : ofBigEndian [] = 0 := rfl

theorem ofBigEndian_concat (bs : List UInt8) (b : UInt8) :
    ofBigEndian (bs ++ [b]) = ofBigEndian bs * 256 + b.toNat := by
  simp [ofBigEndian, List.foldl_append]

/-- Encoding keeps exactly the low `8 * n` bits. -/
theorem ofBigEndian_bigEndian (n v : Nat) : ofBigEndian (bigEndian n v) = v % 256 ^ n := by
  induction n generalizing v with
  | zero => simp [bigEndian, Nat.mod_one]
  | succ n ih =>
    have hb : (UInt8.ofNat v).toNat = v % 256 := by simp
    rw [bigEndian, ofBigEndian_concat, ih, hb, Nat.pow_succ', Nat.mod_mul]
    ring

theorem ofBigEndian_bigEndian_of_lt {n v : Nat} (h : v < 256 ^ n) :
    ofBigEndian (bigEndian n v) = v := by
  rw [ofBigEndian_bigEndian, Nat.mod_eq_of_lt h]

/-- A shift by whole bytes followed by an or is a multiplication and a sum. -/
theorem mul_pow_or_of_lt {a b k : Nat} (h : b < 2 ^ k) :
    a * 2 ^ k ||| b = a * 2 ^ k + b := by
  rw [Nat.mul_comm, Nat.two_pow_add_eq_or_of_lt h]

/-! ## Faulting computations -/

section Except

variable {ε α β : Type}

/-- A sequence succeeds exactly when both its parts do. -/
theorem bind_eq_ok_iff {x : Except ε α} {f : α → Except ε β} {r : β} :
    (x >>= f) = .ok r ↔ ∃ a, x = .ok a ∧ f a = .ok r := by
  cases x with
  | error e => simp [bind, Except.bind]
  | ok a => simp [bind, Except.bind]

/-- A sequence faults when its first part does, or its second part after it. -/
theorem bind_eq_error_iff {x : Except ε α} {f : α → Except ε β} {e : ε} :
    (x >>= f) = .error e ↔ x = .error e ∨ ∃ a, x = .ok a ∧ f a = .error e := by
  cases x with
  | error e' => simp [bind, Except.bind]
  | ok a => simp [bind, Except.bind]

@[simp] theorem ok_bind (a : α) (f : α → Except ε β) :
    ((.ok a : Except ε α) >>= f) = f a := rfl

/-- The result of what does not fault. -/
theorem toOption_eq_some_iff {x : Except ε α} {a : α} :
    x.toOption = some a ↔ x = .ok a := by
  cases x with
  | error e => simp [Except.toOption]
  | ok b => simp [Except.toOption]

/-- The computation does not end with the fault `e`. -/
def Avoids (e : ε) (x : Except ε α) : Prop := x ≠ .error e

theorem avoids_ok (e : ε) (a : α) : Avoids e (.ok a : Except ε α) := fun h => nomatch h

/-- A sequence avoids a fault that its first part avoids, and its second part after it. -/
theorem Avoids.bind {e : ε} {x : Except ε α} {f : α → Except ε β} (hx : Avoids e x)
    (hf : ∀ a, x = .ok a → Avoids e (f a)) : Avoids e (x >>= f) := by
  intro h
  obtain hfirst | ⟨a, ha, hsecond⟩ := bind_eq_error_iff.mp h
  · exact hx hfirst
  · exact hf a ha hsecond

end Except

/-! ## Bounded memory -/

/-- Why a memory access has no defined result. -/
inductive MemFault where
  /-- the access touches an offset at or past the extent of the buffer -/
  | outOfBounds
  /-- the access goes through a null pointer or one whose target was released -/
  | deadPointer
  /-- a vector is asked for an element it does not have -/
  | outOfRange
  deriving DecidableEq, Repr, Inhabited

/-- Read the byte at `i`. -/
def loadByte (mem : List UInt8) (i : Nat) : Except MemFault UInt8 :=
  match mem[i]? with
  | some b => .ok b
  | none => .error .outOfBounds

/-- Read the `n` bytes from `i` on. -/
def loadBytes (mem : List UInt8) (i n : Nat) : Except MemFault (List UInt8) :=
  if i + n ≤ mem.length then .ok ((mem.drop i).take n) else .error .outOfBounds

/-- `mem` with the bytes from `i` on replaced by `bs`. -/
def overwrite (mem : List UInt8) (i : Nat) (bs : List UInt8) : List UInt8 :=
  mem.take i ++ bs ++ mem.drop (i + bs.length)

/-- Write `bs` from `i` on. -/
def storeBytes (mem : List UInt8) (i : Nat) (bs : List UInt8) :
    Except MemFault (List UInt8) :=
  if i + bs.length ≤ mem.length then .ok (overwrite mem i bs)
  else .error .outOfBounds

/-- Read `n` bytes through a pointer that may be dead. -/
def loadThrough (buf : Option (List UInt8)) (n : Nat) : Except MemFault (List UInt8) :=
  match buf with
  | none => .error .deadPointer
  | some bs => loadBytes bs 0 n

/-- The element `i` of a vector. -/
def elementAt {α : Type} (xs : List α) (i : Nat) : Except MemFault α :=
  match xs[i]? with
  | some x => .ok x
  | none => .error .outOfRange

/-- The last element of a vector. -/
def lastElement {α : Type} (xs : List α) : Except MemFault α :=
  match xs.getLast? with
  | some x => .ok x
  | none => .error .outOfRange

/-- The big-endian number in the `n` bytes from `i` on. -/
def bigEndianAt (mem : List UInt8) (i n : Nat) : Nat :=
  ofBigEndian ((mem.drop i).take n)

/-- The number in a field right after a known prefix. -/
theorem bigEndianAt_append (pre post : List UInt8) {n v : Nat} (h : v < 256 ^ n) :
    bigEndianAt (pre ++ (bigEndian n v ++ post)) pre.length n = v := by
  rw [bigEndianAt, List.drop_left', List.take_left' (length_bigEndian n v),
    ofBigEndian_bigEndian_of_lt h]
  rfl

theorem loadByte_eq (mem : List UInt8) (i : Nat) :
    loadByte mem i =
      if h : i < mem.length then .ok mem[i] else .error .outOfBounds := by
  unfold loadByte
  split_ifs with h <;> simp [h]

/-- A nonempty slice is its first byte and the slice behind it. -/
theorem take_drop_succ (mem : List UInt8) (i n : Nat) (h : i < mem.length) :
    (mem.drop i).take (n + 1) = mem[i] :: (mem.drop (i + 1)).take n := by
  rw [List.drop_eq_getElem_cons h, List.take_succ_cons]

theorem loadByte_of_lt {mem : List UInt8} {i : Nat} (h : i < mem.length) :
    loadByte mem i = .ok mem[i] := by
  simp [loadByte, h]

theorem loadByte_eq_ok_iff {mem : List UInt8} {i : Nat} {b : UInt8} :
    loadByte mem i = .ok b ↔ mem[i]? = some b := by
  unfold loadByte
  cases mem[i]? <;> simp

theorem loadByte_eq_error_iff {mem : List UInt8} {i : Nat} {f : MemFault} :
    loadByte mem i = .error f ↔ mem.length ≤ i ∧ f = .outOfBounds := by
  unfold loadByte
  cases h : mem[i]? with
  | none => simpa [eq_comm] using fun _ => List.getElem?_eq_none_iff.mp h
  | some b =>
    have hlt : i < mem.length := (List.getElem?_eq_some_iff.mp h).1
    simp [Nat.not_le.mpr hlt]

/-- The byte right after a known prefix. -/
theorem loadByte_append (pre post : List UInt8) (b : UInt8) :
    loadByte (pre ++ b :: post) pre.length = .ok b := by
  simp [loadByte]

theorem loadBytes_of_le {mem : List UInt8} {i n : Nat} (h : i + n ≤ mem.length) :
    loadBytes mem i n = .ok ((mem.drop i).take n) := by
  simp [loadBytes, h]

theorem length_of_loadBytes {mem bs : List UInt8} {i n : Nat}
    (h : loadBytes mem i n = .ok bs) : bs.length = n := by
  unfold loadBytes at h
  split_ifs at h with hle
  cases h
  simp only [List.length_take, List.length_drop]
  omega

/-! ## Writing -/

@[simp] theorem overwrite_nil (mem : List UInt8) (i : Nat) : overwrite mem i [] = mem := by
  simp [overwrite]

theorem length_overwrite {mem bs : List UInt8} {i : Nat}
    (h : i + bs.length ≤ mem.length) : (overwrite mem i bs).length = mem.length := by
  simp only [overwrite, List.length_append, List.length_take, List.length_drop]
  omega

/-- Two adjacent writes are one. -/
theorem overwrite_overwrite (mem bs bs' : List UInt8) {i : Nat}
    (h : i + bs.length ≤ mem.length) :
    overwrite (overwrite mem i bs) (i + bs.length) bs' = overwrite mem i (bs ++ bs') := by
  have htake : (mem.take i ++ bs).length = i + bs.length := by
    simp only [List.length_append, List.length_take]
    omega
  unfold overwrite
  rw [List.take_left' htake, List.length_append, ← List.drop_drop, List.drop_left' htake,
    List.drop_drop, Nat.add_assoc]
  simp [List.append_assoc]

/-- What a write put into memory is there, and starts where the write did. -/
theorem take_drop_overwrite (mem bs : List UInt8) {i : Nat} (hi : i ≤ mem.length) :
    ((overwrite mem i bs).drop i).take bs.length = bs := by
  have htake : (mem.take i).length = i := by
    simp only [List.length_take]
    omega
  rw [overwrite, List.append_assoc, List.drop_left' htake, List.take_left' rfl]

/-- A write leaves what is before it. -/
theorem take_overwrite (mem bs : List UInt8) {i k : Nat} (hk : k ≤ i) (hi : i ≤ mem.length) :
    (overwrite mem i bs).take k = mem.take k := by
  have hlen : k ≤ (mem.take i).length := by
    rw [List.length_take]
    omega
  rw [overwrite, List.append_assoc, List.take_append_of_le_length hlen, List.take_take,
    Nat.min_eq_left hk]

theorem storeBytes_of_le {mem bs : List UInt8} {i : Nat}
    (h : i + bs.length ≤ mem.length) :
    storeBytes mem i bs = .ok (overwrite mem i bs) := by
  simp [storeBytes, h]

/-- Room for a sequence is room for its first part. -/
theorem fits_of_append {w bs : List UInt8} {i n : Nat} (h : i + (w ++ bs).length ≤ n) :
    i + w.length ≤ n := by
  rw [List.length_append] at h
  omega

/-- A store at the end of what was written so far extends it. -/
theorem storeBytes_overwrite (mem w bs : List UInt8) {i : Nat}
    (h : i + (w ++ bs).length ≤ mem.length) :
    storeBytes (overwrite mem i w) (i + w.length) bs = .ok (overwrite mem i (w ++ bs)) := by
  have hw := fits_of_append h
  rw [storeBytes_of_le, overwrite_overwrite mem w bs hw]
  rw [length_overwrite hw, Nat.add_assoc, ← List.length_append]
  exact h

theorem storeBytes_eq_ok_iff {mem mem' bs : List UInt8} {i : Nat} :
    storeBytes mem i bs = .ok mem' ↔
      i + bs.length ≤ mem.length ∧ mem' = overwrite mem i bs := by
  unfold storeBytes
  split_ifs with h
  · simp [h, eq_comm]
  · simp [h]

theorem take_of_storeBytes {mem mem' bs : List UInt8} {i k : Nat}
    (h : storeBytes mem i bs = .ok mem') (hk : k ≤ i) : mem'.take k = mem.take k := by
  obtain ⟨hcap, rfl⟩ := storeBytes_eq_ok_iff.mp h
  exact take_overwrite mem bs hk (by omega)

/-! ## Vectors -/

theorem elementAt_eq_ok_iff {α : Type} {xs : List α} {i : Nat} {x : α} :
    elementAt xs i = .ok x ↔ xs[i]? = some x := by
  unfold elementAt
  cases xs[i]? <;> simp

@[simp] theorem lastElement_concat {α : Type} (xs : List α) (x : α) :
    lastElement (xs ++ [x]) = .ok x := by
  simp [lastElement]

theorem elementAt_of_le {α : Type} {xs : List α} {i : Nat} (h : xs.length ≤ i) :
    elementAt xs i = .error .outOfRange := by
  rw [elementAt, List.getElem?_eq_none h]

/-- Storing asks no vector for an element. -/
theorem storeBytes_avoids (mem : List UInt8) (i : Nat) (bs : List UInt8) :
    Avoids .outOfRange (storeBytes mem i bs) := by
  unfold storeBytes Avoids
  split_ifs <;> simp

/-- Reading through a pointer asks no vector for an element. -/
theorem loadThrough_avoids (buf : Option (List UInt8)) (n : Nat) :
    Avoids .outOfRange (loadThrough buf n) := by
  unfold loadThrough loadBytes Avoids
  cases buf with
  | none => simp
  | some bs =>
    dsimp only
    split_ifs <;> simp

end RtpBenchmarks.Foundation
