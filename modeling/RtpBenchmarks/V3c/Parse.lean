import RtpBenchmarks.V3c.FileMap

set_option autoImplicit false

/-!
# V3C: the file parser (`mmap_v3c_file`)

`mmap_v3c_file` is two nested loops over offsets.  The outer one reads a size
field at `ptr`, the unit behind it, and continues at the end of the unit by its
declared size; the inner one walks the NAL sample stream of a unit with a cursor
of its own.  They are `mmapLoop` and `nalLoop`, with `scanUnit` the body of the
outer one.

The buffer is exactly the mapped file: a read past its end is a `MemFault`.
Offsets are unbounded here.  The size fields are at most 32 bits wide, so in a
file shorter than `2 ^ 63` bytes no 64-bit cursor of the source wraps.
-/

namespace RtpBenchmarks.V3c

open RtpBenchmarks.Foundation

/-! ## Size fields -/

/-- `combineBytes(byte1, byte2, byte3, byte4)`. -/
def combineBytes4 (byte1 byte2 byte3 byte4 : UInt8) : UInt32 :=
  (byte1.toUInt32 <<< 24) ||| (byte2.toUInt32 <<< 16) |||
    (byte3.toUInt32 <<< 8) ||| byte4.toUInt32

/-- `combineBytes(byte1, byte2, byte3)`. -/
def combineBytes3 (byte1 byte2 byte3 : UInt8) : UInt32 :=
  (byte1.toUInt32 <<< 16) ||| (byte2.toUInt32 <<< 8) ||| byte3.toUInt32

/-- `combineBytes(byte1, byte2)`. -/
def combineBytes2 (byte1 byte2 : UInt8) : UInt32 :=
  (byte1.toUInt32 <<< 8) ||| byte2.toUInt32

/-- `constexpr int V3C_HDR_LEN`. -/
def V3C_HDR_LEN : Nat := 4

/-- `EXIT_FAILURE`, as the `int` it is. -/
def EXIT_FAILURE : Int := 1

/-- The conversion of an `int` to the return type `bool`. -/
def boolOfInt (i : Int) : Bool := i != 0

/-- Why parsing stops before the end of the file. -/
inductive ParseStop where
  /-- a read outside the file -/
  | fault (f : MemFault)
  /-- one of the two `return EXIT_FAILURE` -/
  | exitFailure
  deriving DecidableEq, Repr, Inhabited

/-- A memory access inside the parser. -/
def access {α : Type} (x : Except MemFault α) : Except ParseStop α :=
  x.mapError .fault

/-- The sample stream precision in the top three bits of a byte. -/
def precisionOf (b : UInt8) : Nat := ((b >>> 5) + 1).toNat

/-- `combined_v3c_size`: `v3c_size_precision` bytes are copied out of the file,
and only then is an unsupported precision noticed. -/
def readUnitSize (cbuf : List UInt8) (v3cSizePrecision ptr : Nat) :
    Except ParseStop Nat := do
  let v3cSize ← access (loadBytes cbuf ptr v3cSizePrecision)
  match v3cSizePrecision, v3cSize with
  | 2, [b1, b2] => pure (combineBytes2 b1 b2).toNat
  | 3, [b1, b2, b3] => pure (combineBytes3 b1 b2 b3).toNat
  | _, _ => .error .exitFailure

/-- `combined_nal_size`. -/
def readNalSize (cbuf : List UInt8) (nalSizePrecision v3cPtr : Nat) :
    Except ParseStop Nat := do
  match nalSizePrecision with
  | 2 =>
    let b1 ← access (loadByte cbuf v3cPtr)
    let b2 ← access (loadByte cbuf (v3cPtr + 1))
    pure (combineBytes2 b1 b2).toNat
  | 3 =>
    let b1 ← access (loadByte cbuf v3cPtr)
    let b2 ← access (loadByte cbuf (v3cPtr + 1))
    let b3 ← access (loadByte cbuf (v3cPtr + 2))
    pure (combineBytes3 b1 b2 b3).toNat
  | 4 =>
    let b1 ← access (loadByte cbuf v3cPtr)
    let b2 ← access (loadByte cbuf (v3cPtr + 1))
    let b3 ← access (loadByte cbuf (v3cPtr + 2))
    let b4 ← access (loadByte cbuf (v3cPtr + 3))
    pure (combineBytes4 b1 b2 b3 b4).toNat
  | _ => .error .exitFailure

theorem combineBytes2_toNat (b1 b2 : UInt8) :
    (combineBytes2 b1 b2).toNat = ofBigEndian [b1, b2] := by
  have h1 := b1.toNat_lt
  have h2 := b2.toNat_lt
  have e1 : b1.toNat <<< 8 % 2 ^ 32 = b1.toNat * 2 ^ 8 := by
    rw [Nat.shiftLeft_eq]
    omega
  simp only [combineBytes2, ofBigEndian, List.foldl_cons, List.foldl_nil,
    UInt32.toNat_or, UInt32.toNat_shiftLeft, UInt8.toNat_toUInt32]
  rw [show (8 : UInt32).toNat % 32 = 8 from rfl, e1, mul_pow_or_of_lt h2]
  omega

theorem combineBytes3_toNat (b1 b2 b3 : UInt8) :
    (combineBytes3 b1 b2 b3).toNat = ofBigEndian [b1, b2, b3] := by
  have h1 := b1.toNat_lt
  have h2 := b2.toNat_lt
  have h3 := b3.toNat_lt
  have e1 : b1.toNat <<< 16 % 2 ^ 32 = b1.toNat * 2 ^ 16 := by
    rw [Nat.shiftLeft_eq]
    omega
  have e2 : b2.toNat <<< 8 % 2 ^ 32 = b2.toNat * 2 ^ 8 := by
    rw [Nat.shiftLeft_eq]
    omega
  have e12 : b1.toNat * 2 ^ 16 + b2.toNat * 2 ^ 8
      = (b1.toNat * 256 + b2.toNat) * 2 ^ 8 := by ring
  simp only [combineBytes3, ofBigEndian, List.foldl_cons, List.foldl_nil,
    UInt32.toNat_or, UInt32.toNat_shiftLeft, UInt8.toNat_toUInt32]
  rw [show (8 : UInt32).toNat % 32 = 8 from rfl,
    show (16 : UInt32).toNat % 32 = 16 from rfl, e1, e2,
    mul_pow_or_of_lt (by omega), e12, mul_pow_or_of_lt h3]
  ring

theorem combineBytes4_toNat (b1 b2 b3 b4 : UInt8) :
    (combineBytes4 b1 b2 b3 b4).toNat = ofBigEndian [b1, b2, b3, b4] := by
  have h1 := b1.toNat_lt
  have h2 := b2.toNat_lt
  have h3 := b3.toNat_lt
  have h4 := b4.toNat_lt
  have e1 : b1.toNat <<< 24 % 2 ^ 32 = b1.toNat * 2 ^ 24 := by
    rw [Nat.shiftLeft_eq]
    omega
  have e2 : b2.toNat <<< 16 % 2 ^ 32 = b2.toNat * 2 ^ 16 := by
    rw [Nat.shiftLeft_eq]
    omega
  have e3 : b3.toNat <<< 8 % 2 ^ 32 = b3.toNat * 2 ^ 8 := by
    rw [Nat.shiftLeft_eq]
    omega
  have e12 : b1.toNat * 2 ^ 24 + b2.toNat * 2 ^ 16
      = (b1.toNat * 256 + b2.toNat) * 2 ^ 16 := by ring
  have e123 : (b1.toNat * 256 + b2.toNat) * 2 ^ 16 + b3.toNat * 2 ^ 8
      = ((b1.toNat * 256 + b2.toNat) * 256 + b3.toNat) * 2 ^ 8 := by ring
  simp only [combineBytes4, ofBigEndian, List.foldl_cons, List.foldl_nil,
    UInt32.toNat_or, UInt32.toNat_shiftLeft, UInt8.toNat_toUInt32]
  rw [show (8 : UInt32).toNat % 32 = 8 from rfl,
    show (16 : UInt32).toNat % 32 = 16 from rfl,
    show (24 : UInt32).toNat % 32 = 24 from rfl, e1, e2, e3,
    mul_pow_or_of_lt (by omega), e12, mul_pow_or_of_lt (by omega), e123,
    mul_pow_or_of_lt h4]
  ring

@[simp] theorem access_ok {α : Type} (a : α) : access (.ok a) = .ok a := rfl

@[simp] theorem access_error {α : Type} (f : MemFault) :
    access (.error f : Except MemFault α) = .error (.fault f) := rfl

/-- A supported unit size field is the big-endian number in it. -/
theorem readUnitSize_eq (cbuf : List UInt8) (p ptr : Nat) :
    readUnitSize cbuf p ptr =
      if cbuf.length < ptr + p then .error (.fault .outOfBounds)
      else if p = 2 ∨ p = 3 then .ok (bigEndianAt cbuf ptr p)
      else .error .exitFailure := by
  unfold readUnitSize
  by_cases h : cbuf.length < ptr + p
  · have hload : loadBytes cbuf ptr p = .error .outOfBounds := by
      simp [loadBytes, Nat.not_le.mpr h]
    rw [if_pos h, hload]
    rfl
  · have hlen : ((cbuf.drop ptr).take p).length = p := by
      rw [List.length_take, List.length_drop]
      omega
    rw [if_neg h, loadBytes_of_le (by omega), access_ok, ok_bind]
    by_cases h2 : p = 2
    · subst h2
      obtain ⟨b1, b2, hb⟩ := List.length_eq_two.mp hlen
      rw [bigEndianAt, hb, ← combineBytes2_toNat]
      rfl
    · by_cases h3 : p = 3
      · subst h3
        obtain ⟨b1, b2, b3, hb⟩ := List.length_eq_three.mp hlen
        rw [bigEndianAt, hb, ← combineBytes3_toNat]
        rfl
      · rw [if_neg (by omega)]
        split
        · exact absurd rfl h2
        · exact absurd rfl h3
        · rfl

/-- A supported NAL size field is the big-endian number in it. -/
theorem readNalSize_eq (cbuf : List UInt8) (q ptr : Nat) :
    readNalSize cbuf q ptr =
      if q = 2 ∨ q = 3 ∨ q = 4 then
        if cbuf.length < ptr + q then .error (.fault .outOfBounds)
        else .ok (bigEndianAt cbuf ptr q)
      else .error .exitFailure := by
  unfold readNalSize
  split
  · rw [if_pos (by omega)]
    simp only [loadByte_eq]
    split_ifs with h0 h1 h
    all_goals first | omega | rfl | skip
    rw [bigEndianAt, take_drop_succ _ _ _ h0, take_drop_succ _ _ _ h1, List.take_zero,
      ← combineBytes2_toNat]
    rfl
  · rw [if_pos (by omega)]
    simp only [loadByte_eq]
    split_ifs with h0 h1 h2 h
    all_goals first | omega | rfl | skip
    rw [bigEndianAt, take_drop_succ _ _ _ h0, take_drop_succ _ _ _ h1,
      take_drop_succ _ _ _ h2, List.take_zero, ← combineBytes3_toNat]
    rfl
  · rw [if_pos (by omega)]
    simp only [loadByte_eq]
    split_ifs with h0 h1 h2 h3 h
    all_goals first | omega | rfl | skip
    rw [bigEndianAt, take_drop_succ _ _ _ h0, take_drop_succ _ _ _ h1,
      take_drop_succ _ _ _ h2, take_drop_succ _ _ _ h3, List.take_zero,
      ← combineBytes4_toNat]
    rfl
  · rename_i h2 h3 h4
    rw [if_neg]
    rintro (h | h | h)
    · exact h2 h
    · exact h3 h
    · exact h4 h

/-! ## The loops -/

theorem readNalSize_pos {cbuf : List UInt8} {q p n : Nat}
    (h : readNalSize cbuf q p = .ok n) : 0 < q := by
  rw [readNalSize_eq] at h
  split_ifs at h
  omega

/-- The inner `while (true)`: the NAL sample stream of a unit that ends at
`unitEnd`. -/
@[semireducible] def nalLoop (cbuf : List UInt8) (nalSizePrecision unitEnd v3cPtr : Nat)
    (nalInfos : List NalInfo) : Except ParseStop (List NalInfo) :=
  if v3cPtr ≥ unitEnd then .ok nalInfos
  else
    match _h : readNalSize cbuf nalSizePrecision v3cPtr with
    | .error e => .error e
    | .ok combinedNalSize =>
      nalLoop cbuf nalSizePrecision unitEnd
        (v3cPtr + nalSizePrecision + combinedNalSize)
        (nalInfos ++ [{ location := v3cPtr + nalSizePrecision,
                        size := combinedNalSize }])
termination_by unitEnd - v3cPtr
decreasing_by
  have := readNalSize_pos _h
  omega

/-- What one iteration of the outer loop finds: the unit's offset behind its
size field, its declared size, and the entry built for it. -/
structure UnitScan where
  start : Nat
  size : Nat
  info : V3cUnitInfo
  deriving DecidableEq, Repr, Inhabited

/-- The NAL unit entries of a unit of type `t` that starts at `ptr`.  A parameter
set is one entry for the whole unit, header included; the payload of an atlas
unit starts with its own NAL size precision. -/
def unitNals (cbuf : List UInt8) (t : Option V3cUnitType) (ptr combinedV3cSize : Nat) :
    Except ParseStop (List NalInfo) :=
  match t with
  | some .vps => pure [{ location := ptr, size := combinedV3cSize }]
  | some .ad | some .cad => do
    let v3cuFirstByte ← access (loadByte cbuf (ptr + V3C_HDR_LEN))
    nalLoop cbuf (precisionOf v3cuFirstByte) (ptr + combinedV3cSize)
      (ptr + V3C_HDR_LEN + 1) []
  | _ => nalLoop cbuf 4 (ptr + combinedV3cSize) (ptr + V3C_HDR_LEN) []

/-- The body of the outer loop, up to the `push_back`. -/
def scanUnit (cbuf : List UInt8) (v3cSizePrecision ptr : Nat) :
    Except ParseStop UnitScan := do
  let combinedV3cSize ← readUnitSize cbuf v3cSizePrecision ptr
  let ptr := ptr + v3cSizePrecision
  let v3cHdr ← access (parseV3cHeader {} cbuf ptr)
  let nalInfos ←
    unitNals cbuf (V3cUnitType.ofCode v3cHdr.vuhUnitType) ptr combinedV3cSize
  pure ⟨ptr, combinedV3cSize, { header := v3cHdr, nalInfos }⟩

/-- Everything a completed iteration of the outer loop has done. -/
theorem scanUnit_eq_ok_iff {cbuf : List UInt8} {p ptr : Nat} {u : UnitScan} :
    scanUnit cbuf p ptr = .ok u ↔
      ∃ size hdr nalInfos, readUnitSize cbuf p ptr = .ok size ∧
        parseV3cHeader {} cbuf (ptr + p) = .ok hdr ∧
        unitNals cbuf (V3cUnitType.ofCode hdr.vuhUnitType) (ptr + p) size
          = .ok nalInfos ∧
        u = ⟨ptr + p, size, { header := hdr, nalInfos }⟩ := by
  have haccess : ∀ x : Except MemFault V3cUnitHeader, ∀ h,
      access x = .ok h ↔ x = .ok h := by
    intro x h
    cases x <;> simp
  simp only [scanUnit, bind_eq_ok_iff, haccess]
  constructor
  · rintro ⟨size, hsize, hdr, hhdr, nals, hnals, hu⟩
    exact ⟨size, hdr, nals, hsize, hhdr, hnals, (Except.ok.inj hu).symm⟩
  · rintro ⟨size, hdr, nals, hsize, hhdr, hnals, rfl⟩
    exact ⟨size, hsize, hdr, hhdr, nals, hnals, rfl⟩

theorem scanUnit_advances {cbuf : List UInt8} {p ptr : Nat} {u : UnitScan}
    (h : scanUnit cbuf p ptr = .ok u) : ptr < u.start + u.size := by
  obtain ⟨size, hdr, nals, hsize, _, _, rfl⟩ := scanUnit_eq_ok_iff.mp h
  rw [readUnitSize_eq] at hsize
  split_ifs at hsize with h1 h2
  dsimp only
  omega

/-- The outer `while (true)`. -/
@[semireducible] def mmapLoop (cbuf : List UInt8) (len v3cSizePrecision ptr : Nat)
    (mmap : V3cFileMap) : Except MemFault (Bool × V3cFileMap) :=
  if ptr ≥ len then .ok (true, mmap)
  else
    match _h : scanUnit cbuf v3cSizePrecision ptr with
    | .error (.fault f) => .error f
    | .error .exitFailure => .ok (boolOfInt EXIT_FAILURE, mmap)
    | .ok u => mmapLoop cbuf len v3cSizePrecision (u.start + u.size) (mmap.pushUnit u.info)
termination_by len - ptr
decreasing_by
  have := scanUnit_advances _h
  omega

/-- `mmap_v3c_file(cbuf, len, mmap)`. -/
def mmapV3cFile (cbuf : List UInt8) (len : Nat) (mmap : V3cFileMap) :
    Except MemFault (Bool × V3cFileMap) := do
  let firstByte ← loadByte cbuf 0
  mmapLoop cbuf len (precisionOf firstByte) 1 mmap

end RtpBenchmarks.V3c
