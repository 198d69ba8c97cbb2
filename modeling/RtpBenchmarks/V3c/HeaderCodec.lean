import RtpBenchmarks.Foundation.Bits
import RtpBenchmarks.V3c.SampleStream
import RtpBenchmarks.V3c.Write

set_option autoImplicit false

/-!
# V3C: unit headers, written and read back

The header layout is written out twice in the source.  The two copies agree on
every type but AVD: `create_v3c_unit` shifts bit 6 of the attribute index one
place too far, so it is always written as zero, and `parse_v3c_header` or-s the
high two bits of the partition index onto its low three instead of above them.

Each field is compared bit by bit, once for the direction "fields, bytes, fields"
and once for "bytes, fields, bytes".
-/

namespace RtpBenchmarks.V3c

open RtpBenchmarks.Foundation

/-! ## What the two functions compute, per type -/

/-- First header byte. -/
def typeByte (c p : UInt8) : UInt8 := (c <<< 3) ||| ((p &&& 0b1110) >>> 1)

/-- Second header byte, with `m` its last bit. -/
def idByte (p a m : UInt8) : UInt8 :=
  (((p &&& 0b1) <<< 7) ||| ((a &&& 0b111111) <<< 1)) ||| m

theorem v3cHeader_ad (h : VuhAd) : v3cHeader (.ofVuh (.ad h)) =
    [typeByte 1 h.vuhV3cParameterSetId, idByte h.vuhV3cParameterSetId h.vuhAtlasId 0,
      0, 0] := by
  simp only [idByte, UInt8.or_zero]
  rfl

theorem v3cHeader_ovd (h : VuhOvd) : v3cHeader (.ofVuh (.ovd h)) =
    [typeByte 2 h.vuhV3cParameterSetId, idByte h.vuhV3cParameterSetId h.vuhAtlasId 0,
      0, 0] := by
  simp only [idByte, UInt8.or_zero]
  rfl

theorem v3cHeader_pvd (h : VuhPvd) : v3cHeader (.ofVuh (.pvd h)) =
    [typeByte 5 h.vuhV3cParameterSetId, idByte h.vuhV3cParameterSetId h.vuhAtlasId 0,
      0, 0] := by
  simp only [idByte, UInt8.or_zero]
  rfl

theorem v3cHeader_cad (h : VuhCad) : v3cHeader (.ofVuh (.cad h)) =
    [typeByte 6 h.vuhV3cParameterSetId, idByte h.vuhV3cParameterSetId 0 0, 0, 0] := by
  have : ((0 : UInt8) &&& 0b111111) <<< 1 = 0 := rfl
  simp only [idByte, UInt8.or_zero, this]
  rfl

theorem v3cHeader_gvd (h : VuhGvd) : v3cHeader (.ofVuh (.gvd h)) =
    [typeByte 3 h.vuhV3cParameterSetId,
      idByte h.vuhV3cParameterSetId h.vuhAtlasId ((h.vuhMapIndex &&& 0b1000) >>> 3),
      ((h.vuhMapIndex &&& 0b111) <<< 5) ||| (flagByte h.vuhAuxiliaryVideoFlag <<< 4),
      0] := by
  rfl

theorem v3cHeader_avd (h : VuhAvd) : v3cHeader (.ofVuh (.avd h)) =
    [typeByte 4 h.vuhV3cParameterSetId,
      idByte h.vuhV3cParameterSetId h.vuhAtlasId
        ((h.vuhAttributeIndex &&& 0b1000000) >>> 7),
      ((h.vuhAttributeIndex &&& 0b111111) <<< 2)
        ||| ((h.vuhAttributePartitionIndex &&& 0b11000) >>> 3),
      ((h.vuhAttributePartitionIndex &&& 0b111) <<< 5) ||| (h.vuhMapIndex <<< 1)
        ||| flagByte h.vuhAuxiliaryVideoFlag] := by
  rfl

/-- The fields `parse_v3c_header` finds in a header of each type. -/
def fieldsOf (t : V3cUnitType) (b0 b1 b2 b3 : UInt8) : Option Vuh :=
  match t with
  | .vps => none
  | .ad => some (.ad ⟨parameterSetIdBits b0 b1, atlasIdBits b1⟩)
  | .ovd => some (.ovd ⟨parameterSetIdBits b0 b1, atlasIdBits b1⟩)
  | .gvd => some (.gvd ⟨parameterSetIdBits b0 b1, atlasIdBits b1,
      ((b1 &&& 0b1) <<< 3) ||| ((b2 &&& 0b11100000) >>> 5),
      ((b2 &&& 0b00010000) >>> 4) != 0⟩)
  | .avd => some (.avd ⟨parameterSetIdBits b0 b1, atlasIdBits b1,
      ((b1 &&& 0b1) <<< 6) ||| ((b2 &&& 0b11111100) >>> 2),
      (b2 &&& (0b11 : UInt8)) ||| ((b3 &&& 0b11100000) >>> 5),
      (b3 &&& 0b00011110) >>> 1, (b3 &&& 0b1) != 0⟩)
  | .pvd => some (.pvd ⟨parameterSetIdBits b0 b1, atlasIdBits b1⟩)
  | .cad => some (.cad ⟨parameterSetIdBits b0 b1⟩)

theorem headerOf_eq_ofVuh {t : V3cUnitType} {b0 b1 b2 b3 : UInt8} {v : Vuh}
    (ht : (b0 &&& 0b11111000) >>> 3 = t.code) (hv : fieldsOf t b0 b1 b2 b3 = some v) :
    headerOf b0 b1 b2 b3 = .ofVuh v := by
  have e0 : loadByte [b0, b1, b2, b3] 0 = .ok b0 := rfl
  unfold headerOf parseV3cHeader
  simp only [e0, ok_bind, ht, V3cUnitType.ofCode_code]
  cases t <;> simp only [fieldsOf, Option.some.injEq, reduceCtorEq] at hv <;>
    subst hv <;> rfl

/-! ## Fields, bytes, fields -/

section FieldsToBytes

variable {c p a m : UInt8}

theorem typeBits_typeByte (hc : c.toNat < 2 ^ 5) :
    (typeByte c p &&& 0b11111000) >>> 3 = c := by
  have hclear := bit_eq_false hc
  apply eq_of_bits
  intro i hi
  interval_cases i <;> simp [typeByte, hclear]

theorem parameterSetIdBits_bytes (hp : p.toNat < 2 ^ 4) (hm : m.toNat < 2 ^ 1) :
    parameterSetIdBits (typeByte c p) (idByte p a m) = p := by
  have hclear := bit_eq_false hp
  have hmclear := bit_eq_false hm
  apply eq_of_bits
  intro i hi
  interval_cases i <;> simp [parameterSetIdBits, typeByte, idByte, hclear, hmclear]

theorem atlasIdBits_bytes (ha : a.toNat < 2 ^ 6) (hm : m.toNat < 2 ^ 1) :
    atlasIdBits (idByte p a m) = a := by
  have hclear := bit_eq_false ha
  have hmclear := bit_eq_false hm
  apply eq_of_bits
  intro i hi
  interval_cases i <;> simp [atlasIdBits, idByte, hclear, hmclear]

theorem flagByte_bit {x : UInt8} (hx : x.toNat < 2 ^ 1) : flagByte (x != 0) = x := by
  have hcases : x = 0 ∨ x = 1 := by
    have : x.toNat = 0 ∨ x.toNat = 1 := by omega
    rcases this with h | h
    · exact Or.inl (UInt8.toNat_inj.mp h)
    · exact Or.inr (UInt8.toNat_inj.mp h)
  rcases hcases with rfl | rfl <;> rfl

theorem gvdMapIndex_bytes (hm : m.toNat < 2 ^ 4) (flag : Bool) :
    ((idByte p a ((m &&& 0b1000) >>> 3) &&& 0b1) <<< 3) |||
      (((((m &&& 0b111) <<< 5) ||| (flagByte flag <<< 4)) &&& 0b11100000) >>> 5) = m := by
  have hclear := bit_eq_false hm
  apply eq_of_bits
  intro i hi
  cases flag <;> interval_cases i <;> simp [idByte, flagByte, hclear]

theorem gvdFlag_bytes (flag : Bool) :
    (((((m &&& 0b111) <<< 5) ||| (flagByte flag <<< 4)) &&& (0b00010000 : UInt8)) >>> 4
      != 0) = flag := by
  have hbit : ((((m &&& 0b111) <<< 5) ||| (flagByte flag <<< 4)) &&& 0b00010000) >>> 4
      = flagByte flag := by
    apply eq_of_bits
    intro i hi
    cases flag <;> interval_cases i <;> simp [flagByte]
  rw [hbit]
  cases flag <;> rfl

variable {attr part : UInt8}

/-- Bit 6 of the attribute index does not come back. -/
theorem attributeIndex_bytes :
    ((idByte p a ((attr &&& 0b1000000) >>> 7) &&& 0b1) <<< 6) |||
      (((((attr &&& 0b111111) <<< 2) ||| ((part &&& 0b11000) >>> 3)) &&& 0b11111100)
        >>> 2) = attr &&& 0b111111 := by
  apply eq_of_bits
  intro i hi
  interval_cases i <;> simp [idByte]

/-- The high two bits of the partition index come back on top of the low three. -/
theorem partitionIndex_bytes (hm : m.toNat < 2 ^ 4) (flag : Bool) :
    ((((attr &&& 0b111111) <<< 2) ||| ((part &&& 0b11000) >>> 3)) &&& (0b11 : UInt8)) |||
      (((((part &&& 0b111) <<< 5) ||| (m <<< 1) ||| flagByte flag) &&& 0b11100000) >>> 5)
      = ((part &&& 0b11000) >>> 3) ||| (part &&& (0b111 : UInt8)) := by
  have hclear := bit_eq_false hm
  apply eq_of_bits
  intro i hi
  cases flag <;> interval_cases i <;> simp [flagByte, hclear]

theorem avdMapIndex_bytes (hm : m.toNat < 2 ^ 4) (flag : Bool) :
    ((((part &&& 0b111) <<< 5) ||| (m <<< 1) ||| flagByte flag) &&& 0b00011110) >>> 1
      = m := by
  have hclear := bit_eq_false hm
  apply eq_of_bits
  intro i hi
  cases flag <;> interval_cases i <;> simp [flagByte, hclear]

theorem avdFlag_bytes (flag : Bool) :
    (((((part &&& 0b111) <<< 5) ||| (m <<< 1) ||| flagByte flag) &&& (0b1 : UInt8)) != 0)
      = flag := by
  have hbit : (((part &&& 0b111) <<< 5) ||| (m <<< 1) ||| flagByte flag) &&& (0b1 : UInt8)
      = flagByte flag := by
    apply eq_of_bits
    intro i hi
    cases flag <;> interval_cases i <;> simp [flagByte]
  rw [hbit]
  cases flag <;> rfl

theorem attributeIndex_kept_iff :
    attr &&& 0b111111 = attr ↔ attr.toNat < 2 ^ 6 := by
  constructor
  · intro h
    rw [← h]
    exact width_and (by decide)
  · intro h
    have hclear := bit_eq_false h
    apply eq_of_bits
    intro i hi
    interval_cases i <;> simp [hclear]

theorem partitionIndex_kept_iff (hp : part.toNat < 2 ^ 5) :
    ((part &&& 0b11000) >>> 3) ||| (part &&& (0b111 : UInt8)) = part ↔
      part.toNat < 2 ^ 3 := by
  have hclear5 := bit_eq_false hp
  constructor
  · intro h
    -- bits 3 and 4 of the left side are clear
    have hmask : part &&& 0b111 = part := by
      rw [← h]
      apply eq_of_bits
      intro i hi
      interval_cases i <;> simp
    rw [← hmask]
    exact width_and (by decide)
  · intro h
    have hclear := bit_eq_false h
    apply eq_of_bits
    intro i hi
    interval_cases i <;> simp [hclear]

end FieldsToBytes

/-- Every field within the bit width the format gives it. -/
def Vuh.InWidths : Vuh → Prop
  | .ad h => h.vuhV3cParameterSetId.toNat < 2 ^ 4 ∧ h.vuhAtlasId.toNat < 2 ^ 6
  | .ovd h => h.vuhV3cParameterSetId.toNat < 2 ^ 4 ∧ h.vuhAtlasId.toNat < 2 ^ 6
  | .gvd h => h.vuhV3cParameterSetId.toNat < 2 ^ 4 ∧ h.vuhAtlasId.toNat < 2 ^ 6 ∧
      h.vuhMapIndex.toNat < 2 ^ 4
  | .avd h => h.vuhV3cParameterSetId.toNat < 2 ^ 4 ∧ h.vuhAtlasId.toNat < 2 ^ 6 ∧
      h.vuhAttributeIndex.toNat < 2 ^ 7 ∧ h.vuhAttributePartitionIndex.toNat < 2 ^ 5 ∧
      h.vuhMapIndex.toNat < 2 ^ 4
  | .pvd h => h.vuhV3cParameterSetId.toNat < 2 ^ 4 ∧ h.vuhAtlasId.toNat < 2 ^ 6
  | .cad h => h.vuhV3cParameterSetId.toNat < 2 ^ 4

instance : (v : Vuh) → Decidable v.InWidths
  | .ad _ => inferInstanceAs (Decidable (_ ∧ _))
  | .ovd _ => inferInstanceAs (Decidable (_ ∧ _))
  | .gvd _ => inferInstanceAs (Decidable (_ ∧ _ ∧ _))
  | .avd _ => inferInstanceAs (Decidable (_ ∧ _ ∧ _ ∧ _ ∧ _))
  | .pvd _ => inferInstanceAs (Decidable (_ ∧ _))
  | .cad _ => inferInstanceAs (Decidable (_ < _))

/-- The fields that survive: for AVD, an attribute index below 64 and a partition
index below 8. -/
def Vuh.KeepsIndices : Vuh → Prop
  | .avd h => h.vuhAttributeIndex.toNat < 2 ^ 6 ∧
      h.vuhAttributePartitionIndex.toNat < 2 ^ 3
  | _ => True

instance : (v : Vuh) → Decidable v.KeepsIndices
  | .avd _ => inferInstanceAs (Decidable (_ ∧ _))
  | .ad _ | .ovd _ | .gvd _ | .pvd _ | .cad _ => inferInstanceAs (Decidable True)

/-- The fields that come back. -/
def Vuh.reread : Vuh → Vuh
  | .avd h => .avd { h with
      vuhAttributeIndex := h.vuhAttributeIndex &&& 0b111111
      vuhAttributePartitionIndex :=
        ((h.vuhAttributePartitionIndex &&& 0b11000) >>> 3)
          ||| (h.vuhAttributePartitionIndex &&& (0b111 : UInt8)) }
  | v => v

theorem Vuh.reread_eq_iff {v : Vuh} (hw : v.InWidths) : v.reread = v ↔ v.KeepsIndices := by
  cases v with
  | avd h =>
    obtain ⟨_, _, _, hpart, _⟩ := hw
    simp only [reread, KeepsIndices, ← attributeIndex_kept_iff,
      ← partitionIndex_kept_iff hpart]
    constructor
    · intro h'
      injection h' with h'
      exact ⟨congrArg VuhAvd.vuhAttributeIndex h',
        congrArg VuhAvd.vuhAttributePartitionIndex h'⟩
    · rintro ⟨h1, h2⟩
      rw [h1, h2]
  | _ => simp [reread, KeepsIndices]

theorem lastBit_gvdMapIndex (x : UInt8) : ((x &&& 0b1000) >>> 3).toNat < 2 ^ 1 := by
  have h : (x &&& 0b1000) >>> 3 = ((x &&& 0b1000) >>> 3) &&& 0b1 := by
    apply eq_of_bits
    intro i hi
    interval_cases i <;> simp
  rw [h]
  exact width_and (by decide)

/-- The encoder's term for bit 6 of the attribute index. -/
theorem attributeIndex_shifted_out (x : UInt8) : (x &&& 0b1000000) >>> 7 = 0 := by
  apply eq_of_bits
  intro i hi
  interval_cases i <;> simp

/-- AD, OVD and PVD headers hold the two ids and nothing else. -/
theorem headerOf_ids {t : V3cUnitType} {f : UInt8 → UInt8 → Vuh}
    (hf : ∀ b0 b1 b2 b3, fieldsOf t b0 b1 b2 b3 =
      some (f (parameterSetIdBits b0 b1) (atlasIdBits b1)))
    {p a : UInt8} (hp : p.toNat < 2 ^ 4) (ha : a.toNat < 2 ^ 6) {b0 b1 b2 b3 : UInt8}
    (h : [typeByte t.code p, idByte p a 0, 0, 0] = [b0, b1, b2, b3]) :
    headerOf b0 b1 b2 b3 = .ofVuh (f p a) := by
  have hcode : t.code.toNat < 2 ^ 5 := by cases t <;> decide
  have hzero : (0 : UInt8).toNat < 2 ^ 1 := by decide
  injection h with h0 h
  injection h with h1 h
  subst h0 h1
  apply headerOf_eq_ofVuh (typeBits_typeByte hcode)
  rw [hf, parameterSetIdBits_bytes hp hzero, atlasIdBits_bytes ha hzero]

/-- Parsing the header bytes of a unit whose fields are within their widths. -/
theorem headerOf_v3cHeader {v : Vuh} (hw : v.InWidths) {b0 b1 b2 b3 : UInt8}
    (h : v3cHeader (.ofVuh v) = [b0, b1, b2, b3]) :
    headerOf b0 b1 b2 b3 = .ofVuh v.reread := by
  have hzero : (0 : UInt8).toNat < 2 ^ 1 := by decide
  cases v with
  | ad h' =>
    exact headerOf_ids (t := .ad) (f := fun p a => .ad ⟨p, a⟩) (fun _ _ _ _ => rfl) hw.1 hw.2
      ((v3cHeader_ad h').symm.trans h)
  | ovd h' =>
    exact headerOf_ids (t := .ovd) (f := fun p a => .ovd ⟨p, a⟩) (fun _ _ _ _ => rfl) hw.1 hw.2
      ((v3cHeader_ovd h').symm.trans h)
  | pvd h' =>
    exact headerOf_ids (t := .pvd) (f := fun p a => .pvd ⟨p, a⟩) (fun _ _ _ _ => rfl) hw.1 hw.2
      ((v3cHeader_pvd h').symm.trans h)
  | cad h' =>
    rw [v3cHeader_cad] at h
    injection h with h0 h
    injection h with h1 h
    subst h0 h1
    apply headerOf_eq_ofVuh (t := .cad) (typeBits_typeByte (by decide))
    simp only [fieldsOf, parameterSetIdBits_bytes hw hzero]
    rfl
  | gvd h' =>
    obtain ⟨hp, ha, hm⟩ := hw
    have hlast := lastBit_gvdMapIndex h'.vuhMapIndex
    rw [v3cHeader_gvd] at h
    injection h with h0 h
    injection h with h1 h
    injection h with h2 h
    subst h0 h1 h2
    apply headerOf_eq_ofVuh (t := .gvd) (typeBits_typeByte (by decide))
    simp only [fieldsOf, parameterSetIdBits_bytes hp hlast, atlasIdBits_bytes ha hlast,
      gvdMapIndex_bytes hm, gvdFlag_bytes]
    rfl
  | avd h' =>
    obtain ⟨hp, ha, _, _, hm⟩ := hw
    have hlast : ((h'.vuhAttributeIndex &&& 0b1000000) >>> 7).toNat < 2 ^ 1 := by
      rw [attributeIndex_shifted_out]
      exact hzero
    rw [v3cHeader_avd] at h
    injection h with h0 h
    injection h with h1 h
    injection h with h2 h
    injection h with h3 h
    subst h0 h1 h2 h3
    apply headerOf_eq_ofVuh (t := .avd) (typeBits_typeByte (by decide))
    simp only [fieldsOf, parameterSetIdBits_bytes hp hlast, atlasIdBits_bytes ha hlast,
      attributeIndex_bytes, partitionIndex_bytes hm, avdMapIndex_bytes hm, avdFlag_bytes]
    rfl

/-! ## Bytes, fields, bytes -/

section BytesToFields

variable {b0 b1 b2 b3 m : UInt8}

theorem typeByte_bits :
    typeByte ((b0 &&& 0b11111000) >>> 3) (parameterSetIdBits b0 b1) = b0 := by
  apply eq_of_bits
  intro i hi
  interval_cases i <;> simp [typeByte, parameterSetIdBits]

theorem idByte_bits :
    idByte (parameterSetIdBits b0 b1) (atlasIdBits b1) m = (b1 &&& 0b11111110) ||| m := by
  apply eq_of_bits
  intro i hi
  interval_cases i <;> simp [idByte, parameterSetIdBits, atlasIdBits]

theorem idByte_bits_cad :
    idByte (parameterSetIdBits b0 b1) 0 0 = b1 &&& 0b10000000 := by
  apply eq_of_bits
  intro i hi
  interval_cases i <;> simp [idByte, parameterSetIdBits]

/-- A byte is the part under a mask and the part outside it. -/
theorem and_or_and (b k k' : UInt8) (h : k ||| k' = 255) :
    (b &&& k) ||| (b &&& k') = b := by
  apply eq_of_bits
  intro i hi
  have hk : (k ||| k').toBitVec[i] = true := by
    rw [h]
    interval_cases i <;> simp
  simp only [UInt8.toBitVec_or, BitVec.getElem_or] at hk
  simp only [UInt8.toBitVec_or, UInt8.toBitVec_and, BitVec.getElem_or, BitVec.getElem_and]
  rw [← Bool.and_or_distrib_left, hk, Bool.and_true]

theorem and_eq_self_of_clear {b k k' : UInt8} (h : k ||| k' = 255) (hclear : b &&& k' = 0) :
    b &&& k = b := by
  have hb := and_or_and b k k' h
  rwa [hclear, UInt8.or_zero] at hb

theorem lastBit_lt (b : UInt8) : (b &&& 0b1).toNat < 2 ^ 1 := width_and (by decide)

theorem gvdBit_lt (b : UInt8) : ((b &&& 0b00010000) >>> 4).toNat < 2 ^ 1 := by
  have h : (b &&& 0b00010000) >>> 4 = ((b &&& 0b00010000) >>> 4) &&& 0b1 := by
    apply eq_of_bits
    intro i hi
    interval_cases i <;> simp
  rw [h]
  exact width_and (by decide)

theorem gvdMapIndex_bits :
    ((((b1 &&& 0b1) <<< 3) ||| ((b2 &&& 0b11100000) >>> 5)) &&& 0b1000) >>> 3
      = b1 &&& 0b1 := by
  apply eq_of_bits
  intro i hi
  interval_cases i <;> simp

theorem gvdThirdByte_bits :
    (((((b1 &&& 0b1) <<< 3) ||| ((b2 &&& 0b11100000) >>> 5)) &&& 0b111) <<< 5) |||
      (flagByte (((b2 &&& 0b00010000) >>> 4) != 0) <<< 4) = b2 &&& 0b11110000 := by
  rw [flagByte_bit (gvdBit_lt b2)]
  apply eq_of_bits
  intro i hi
  interval_cases i <;> simp

theorem avdThirdByte_bits :
    (((((b1 &&& 0b1) <<< 6) ||| ((b2 &&& 0b11111100) >>> 2)) &&& 0b111111) <<< 2) |||
      ((((b2 &&& (0b11 : UInt8)) ||| ((b3 &&& 0b11100000) >>> 5)) &&& 0b11000) >>> 3)
      = b2 &&& 0b11111100 := by
  apply eq_of_bits
  intro i hi
  interval_cases i <;> simp

/-- The low two bits of the third byte end up in the fourth. -/
theorem avdFourthByte_bits :
    ((((b2 &&& (0b11 : UInt8)) ||| ((b3 &&& 0b11100000) >>> 5)) &&& 0b111) <<< 5) |||
      (((b3 &&& 0b00011110) >>> 1) <<< 1) ||| flagByte ((b3 &&& (0b1 : UInt8)) != 0)
      = ((b2 &&& 0b11) <<< 5) ||| b3 := by
  rw [flagByte_bit (lastBit_lt b3)]
  apply eq_of_bits
  intro i hi
  interval_cases i <;> simp

end BytesToFields

/-- The bits the format reserves in a header of each type are zero. -/
def ReservedZero : V3cUnitType → UInt8 → UInt8 → UInt8 → UInt8 → Prop
  | .vps, b0, b1, b2, b3 => b0 &&& 0b111 = 0 ∧ b1 = 0 ∧ b2 = 0 ∧ b3 = 0
  | .ad, _, b1, b2, b3 | .ovd, _, b1, b2, b3 | .pvd, _, b1, b2, b3 =>
      b1 &&& 0b1 = 0 ∧ b2 = 0 ∧ b3 = 0
  | .gvd, _, _, b2, b3 => b2 &&& 0b1111 = 0 ∧ b3 = 0
  | .avd, _, _, _, _ => True
  | .cad, _, b1, b2, b3 => b1 &&& 0b1111111 = 0 ∧ b2 = 0 ∧ b3 = 0

/-- The bytes that survive: for AVD, bit 6 of the attribute index and the high two
bits of the partition index are zero. -/
def KeepsBytes : V3cUnitType → UInt8 → UInt8 → Prop
  | .avd, b1, b2 => b1 &&& (0b1 : UInt8) = 0 ∧ b2 &&& (0b11 : UInt8) = 0
  | _, _, _ => True

instance : (t : V3cUnitType) → (b1 b2 : UInt8) → Decidable (KeepsBytes t b1 b2)
  | .avd, _, _ => inferInstanceAs (Decidable (_ ∧ _))
  | .vps, _, _ | .ad, _, _ | .ovd, _, _ | .gvd, _, _ | .pvd, _, _ | .cad, _, _ =>
    inferInstanceAs (Decidable True)

/-- The two ids parsed from a header with nothing else in it give its bytes back. -/
theorem ids_bits {c b0 b1 b2 b3 : UInt8}
    (h0 : typeByte c (parameterSetIdBits b0 b1) = b0)
    (hres : b1 &&& 0b1 = 0 ∧ b2 = 0 ∧ b3 = 0) :
    [typeByte c (parameterSetIdBits b0 b1),
      idByte (parameterSetIdBits b0 b1) (atlasIdBits b1) 0, 0, 0] = [b0, b1, b2, b3] := by
  obtain ⟨h1, rfl, rfl⟩ := hres
  rw [h0, idByte_bits, UInt8.or_zero, and_eq_self_of_clear (k := 0b11111110) rfl h1]

/-- Re-encoding the header parsed from four bytes. -/
theorem v3cHeader_headerOf_iff {t : V3cUnitType} {b0 b1 b2 b3 : UInt8}
    (ht : (b0 &&& 0b11111000) >>> 3 = t.code) (hvps : t ≠ .vps)
    (hres : ReservedZero t b0 b1 b2 b3) :
    v3cHeader (headerOf b0 b1 b2 b3) = [b0, b1, b2, b3] ↔ KeepsBytes t b1 b2 := by
  have h0 : typeByte t.code (parameterSetIdBits b0 b1) = b0 := by
    rw [← ht]
    exact typeByte_bits
  cases t with
  | vps => exact absurd rfl hvps
  | ad =>
    simp only [V3cUnitType.code] at h0
    rw [headerOf_eq_ofVuh ht rfl, v3cHeader_ad, ids_bits h0 hres]
    simp only [KeepsBytes]
  | ovd =>
    simp only [V3cUnitType.code] at h0
    rw [headerOf_eq_ofVuh ht rfl, v3cHeader_ovd, ids_bits h0 hres]
    simp only [KeepsBytes]
  | pvd =>
    simp only [V3cUnitType.code] at h0
    rw [headerOf_eq_ofVuh ht rfl, v3cHeader_pvd, ids_bits h0 hres]
    simp only [KeepsBytes]
  | cad =>
    obtain ⟨h1, rfl, rfl⟩ := hres
    rw [headerOf_eq_ofVuh ht rfl, v3cHeader_cad]
    simp only [idByte_bits_cad, and_eq_self_of_clear (k := 0b10000000) rfl h1]
    simpa [KeepsBytes, V3cUnitType.code] using h0
  | gvd =>
    obtain ⟨h2, rfl⟩ := hres
    rw [headerOf_eq_ofVuh ht rfl, v3cHeader_gvd]
    simp only [gvdMapIndex_bits, idByte_bits, and_or_and b1 0b11111110 0b1 rfl,
      gvdThirdByte_bits, and_eq_self_of_clear (k := 0b11110000) rfl h2]
    simpa [KeepsBytes, V3cUnitType.code] using h0
  | avd =>
    rw [headerOf_eq_ofVuh ht rfl, v3cHeader_avd]
    simp only [attributeIndex_shifted_out, idByte_bits, UInt8.or_zero, avdThirdByte_bits,
      avdFourthByte_bits, KeepsBytes]
    constructor
    · intro h
      injection h with _ h
      injection h with h1 h
      injection h with h2 _
      refine ⟨?_, ?_⟩
      · rw [← h1]
        apply eq_of_bits
        intro i hi
        interval_cases i <;> simp
      · rw [← h2]
        apply eq_of_bits
        intro i hi
        interval_cases i <;> simp
    · rintro ⟨h1, h2⟩
      rw [and_eq_self_of_clear (k := 0b11111110) rfl h1,
        and_eq_self_of_clear (k := 0b11111100) rfl h2, h2]
      have hzero : ((0 : UInt8) <<< 5) ||| b3 = b3 := by
        rw [show (0 : UInt8) <<< 5 = 0 from rfl, UInt8.zero_or]
      rw [hzero]
      simpa [V3cUnitType.code] using h0

/-! ## Through the two functions -/

/-- The precision byte leaves what is before the cursor. -/
theorem writeNalPrecision_take {v3cType : UInt8} {q : Nat} {buf buf' : List UInt8}
    {ptr ptr' : Nat} (h : writeNalPrecision v3cType q buf ptr = .ok (buf', ptr')) :
    ptr ≤ ptr' ∧ buf'.take ptr = buf.take ptr := by
  simp only [writeNalPrecision] at h
  split_ifs at h with hb
  · obtain ⟨buf₁, hstore, hret⟩ := bind_eq_ok_iff.mp h
    cases hret
    exact ⟨Nat.le_succ ptr, take_of_storeBytes hstore (Nat.le_refl ptr)⟩
  · cases h
    exact ⟨Nat.le_refl ptr, rfl⟩

/-- The NAL loop leaves what is before the cursor. -/
theorem writeNals_take {q k : Nat} {ns ns' : List NalInfo} {buf buf' : List UInt8}
    {ptr ptr' : Nat} (hk : k ≤ ptr) (h : writeNals q ns buf ptr = .ok (ns', buf', ptr')) :
    buf'.take k = buf.take k := by
  induction ns generalizing ns' buf ptr buf' ptr' with
  | nil =>
    cases h
    rfl
  | cons n ns ih =>
    simp only [writeNals, bind_eq_ok_iff] at h
    obtain ⟨buf₁, hsize, nal, -, buf₂, hnal, ⟨ns₂, buf₃, ptr₃⟩, hrest, hret⟩ := h
    cases hret
    rw [ih (by omega) hrest, take_of_storeBytes hnal (by omega), take_of_storeBytes hsize hk]

/-- Wherever `create_v3c_unit` returns, the header bytes are behind the size
field. -/
theorem createV3cUnit_header {u u' : V3cUnitInfo} {buf buf' : List UInt8}
    {ptr ptr' p q : Nat} (h : createV3cUnit u buf ptr p q = .ok (u', buf', ptr')) :
    (buf'.drop (ptr + p)).take 4 = v3cHeader u.header := by
  simp only [createV3cUnit, bind_eq_ok_iff] at h
  obtain ⟨buf₁, -, buf₂, hheader, ⟨buf₃, ptr₃⟩, hprecision, ⟨ns, buf₄, ptr₄⟩, hnals, hret⟩ := h
  cases hret
  obtain ⟨hcap, rfl⟩ := storeBytes_eq_ok_iff.mp hheader
  obtain ⟨hptr₃, htake₃⟩ := writeNalPrecision_take hprecision
  -- what is up to the end of the header stays as the header's store left it
  have htake : buf₄.take (ptr + p + 4) =
      (overwrite buf₁ (ptr + p) (v3cHeader u.header)).take (ptr + p + 4) :=
    (writeNals_take hptr₃ hnals).trans htake₃
  have hlen : ptr + p + 4 - (ptr + p) = 4 := by omega
  have hdrop := congrArg (List.drop (ptr + p)) htake
  rw [List.drop_take, List.drop_take, hlen] at hdrop
  have hbytes := take_drop_overwrite buf₁ (v3cHeader u.header) (i := ptr + p) (by omega)
  rw [length_v3cHeader] at hbytes
  exact hdrop.trans hbytes

/-- Four bytes anywhere in memory parse to their header. -/
theorem parseV3cHeader_of_take {mem : List UInt8} {i : Nat} {b0 b1 b2 b3 : UInt8}
    (h : (mem.drop i).take 4 = [b0, b1, b2, b3]) :
    parseV3cHeader {} mem i = .ok (headerOf b0 b1 b2 b3) := by
  have hlen := congrArg List.length h
  simp only [List.length_take, List.length_drop, List.length_cons, List.length_nil] at hlen
  have hsplit : mem = mem.take i ++ b0 :: b1 :: b2 :: b3 :: mem.drop (i + 4) := by
    conv_lhs => rw [← List.take_append_drop i mem, ← List.take_append_drop 4 (mem.drop i), h,
      List.drop_drop]
    rfl
  have hpre : (mem.take i).length = i := by
    rw [List.length_take]
    omega
  have hparse := parseV3cHeader_append (mem.take i) (mem.drop (i + 4)) b0 b1 b2 b3
  rwa [← hsplit, hpre] at hparse

theorem exists_header_bytes (hdr : V3cUnitHeader) :
    ∃ b0 b1 b2 b3, v3cHeader hdr = [b0, b1, b2, b3] := by
  have h := length_v3cHeader hdr
  match v3cHeader hdr, h with
  | [b0, b1, b2, b3], _ => exact ⟨b0, b1, b2, b3, rfl⟩

/-- Where the two copies of the header layout agree.  Writing a header whose fields
are within their widths and parsing the bytes gives the header back exactly when,
for AVD, the attribute index is below 64 and the partition index below 8; parsing
four bytes with clear reserved bits and writing the result gives the bytes back
exactly when, for AVD, the three bits that hold the excess are zero. -/
theorem createV3cUnit_parseV3cHeader_iff {u u' : V3cUnitInfo} {buf buf' : List UInt8}
    {ptr ptr' p q : Nat} (hcreate : createV3cUnit u buf ptr p q = .ok (u', buf', ptr')) :
    (∀ v : Vuh, v.InWidths → u.header = .ofVuh v →
      (parseV3cHeader {} buf' (ptr + p) = .ok u.header ↔ v.KeepsIndices)) ∧
    (∀ (t : V3cUnitType) (b0 b1 b2 b3 : UInt8),
      (b0 &&& 0b11111000) >>> 3 = t.code → t ≠ .vps → ReservedZero t b0 b1 b2 b3 →
      parseV3cHeader {} [b0, b1, b2, b3] 0 = .ok u.header →
      ((buf'.drop (ptr + p)).take 4 = [b0, b1, b2, b3] ↔ KeepsBytes t b1 b2)) := by
  constructor
  · intro v hw hu
    have hbytes := createV3cUnit_header hcreate
    obtain ⟨b0, b1, b2, b3, hb⟩ := exists_header_bytes u.header
    rw [hb] at hbytes
    rw [parseV3cHeader_of_take hbytes, Except.ok.injEq]
    rw [hu] at hb ⊢
    rw [headerOf_v3cHeader hw hb, ← Vuh.reread_eq_iff hw]
    constructor
    · intro h
      exact congrArg V3cUnitHeader.vuh h
    · intro h
      rw [h]
  · intro t b0 b1 b2 b3 ht hvps hres hparse
    have hhdr : u.header = headerOf b0 b1 b2 b3 := by
      have h : parseV3cHeader {} [b0, b1, b2, b3] 0 = .ok (headerOf b0 b1 b2 b3) :=
        parseV3cHeader_of_take rfl
      rw [hparse] at h
      exact Except.ok.inj h
    rw [createV3cUnit_header hcreate, hhdr]
    exact v3cHeader_headerOf_iff ht hvps hres

/-- Both directions at an AVD header with attribute index 5: it comes back, and so do
its bytes. -/
theorem createV3cUnit_parseV3cHeader_small :
    parseV3cHeader {} [0, 0, 4, 0x20, 0, 0x14, 0] 3
        = .ok (.ofVuh (.avd { vuhAttributeIndex := 5 })) ∧
      (([0, 0, 4, 0x20, 0, 0x14, 0] : List UInt8).drop 3).take 4 = [0x20, 0, 0x14, 0] := by
  have hcreate : createV3cUnit { header := .ofVuh (.avd { vuhAttributeIndex := 5 }) }
      (List.replicate 7 0) 0 3 4
        = .ok ({ header := .ofVuh (.avd { vuhAttributeIndex := 5 }) },
          [0, 0, 4, 0x20, 0, 0x14, 0], 7) := rfl
  have h := createV3cUnit_parseV3cHeader_iff hcreate
  exact ⟨(h.1 (.avd { vuhAttributeIndex := 5 }) (by decide) rfl).mpr (by decide),
    (h.2 .avd 0x20 0 0x14 0 rfl (by decide) trivial rfl).mpr (by decide)⟩

/-- Attribute index 64 and partition index 8 are within their widths, and neither
comes back: the first is written as 0, the second is read as 1.  The bytes that
denote them do not survive either. -/
theorem avd_header_not_inverse :
    Vuh.InWidths (.avd { vuhAttributeIndex := 64 }) ∧
    Vuh.InWidths (.avd { vuhAttributePartitionIndex := 8 }) ∧
    (createV3cUnit { header := .ofVuh (.avd { vuhAttributeIndex := 64 }) }
        (List.replicate 7 0) 0 3 4
      = .ok ({ header := .ofVuh (.avd { vuhAttributeIndex := 64 }) },
          [0, 0, 4, 0x20, 0, 0, 0], 7)) ∧
    parseV3cHeader {} [0, 0, 4, 0x20, 0, 0, 0] 3
      = .ok (.ofVuh (.avd { vuhAttributeIndex := 0 })) ∧
    (createV3cUnit { header := .ofVuh (.avd { vuhAttributePartitionIndex := 8 }) }
        (List.replicate 7 0) 0 3 4
      = .ok ({ header := .ofVuh (.avd { vuhAttributePartitionIndex := 8 }) },
          [0, 0, 4, 0x20, 0, 1, 0], 7)) ∧
    parseV3cHeader {} [0, 0, 4, 0x20, 0, 1, 0] 3
      = .ok (.ofVuh (.avd { vuhAttributePartitionIndex := 1 })) ∧
    parseV3cHeader {} [0x20, 1, 0, 0] 0
      = .ok (.ofVuh (.avd { vuhAttributeIndex := 64 })) ∧
    v3cHeader (.ofVuh (.avd { vuhAttributeIndex := 64 })) = [0x20, 0, 0, 0] := by
  refine ⟨by decide, by decide, rfl, rfl, rfl, rfl, rfl, rfl⟩

end RtpBenchmarks.V3c
