import RtpBenchmarks.Foundation.Bytes

set_option autoImplicit false

/-!
# V3C: unit headers (`uvgrtp/v3c_util.hh`, `parse_v3c_header`)

A V3C unit starts with four header bytes: a 5-bit unit type, then fields whose
positions depend on the type.  The source writes the layout down twice, once as
the shifts of `parse_v3c_header` and once as the shifts of `create_v3c_unit`;
both are transcribed here byte by byte.

The union inside `v3c_unit_header` is the inductive type `Vuh` of its active
member.  `create_v3c_unit` reads the parameter set id and the atlas id of every
unit through the member `ad`; that is the common initial sequence of all
members, and `Vuh.adParameterSetId` and `Vuh.adAtlasId` are those two reads.
-/

namespace RtpBenchmarks.V3c

open RtpBenchmarks.Foundation

/-! ## Unit types -/

/-- `enum V3C_UNIT_TYPE`. -/
inductive V3cUnitType where
  | vps | ad | ovd | gvd | avd | pvd | cad
  deriving DecidableEq, Repr, Inhabited

namespace V3cUnitType

/-- The enumerator's value. -/
def code : V3cUnitType → UInt8
  | .vps => 0
  | .ad => 1
  | .ovd => 2
  | .gvd => 3
  | .avd => 4
  | .pvd => 5
  | .cad => 6

/-- The enumerator a `vuh_unit_type` is compared equal to; the 25 reserved codes
have none. -/
def ofCode (c : UInt8) : Option V3cUnitType :=
  if c = 0 then some .vps
  else if c = 1 then some .ad
  else if c = 2 then some .ovd
  else if c = 3 then some .gvd
  else if c = 4 then some .avd
  else if c = 5 then some .pvd
  else if c = 6 then some .cad
  else none

/-- The types with an RTP stream of their own, the members of `v3c_streams`. -/
def hasStream (t : V3cUnitType) : Bool := t = .ad || t = .ovd || t = .gvd || t = .avd

@[simp] theorem ofCode_code (t : V3cUnitType) : ofCode t.code = some t := by
  cases t <;> rfl

end V3cUnitType

/-! ## Header fields -/

/-- `struct vuh_ad`. -/
structure VuhAd where
  vuhV3cParameterSetId : UInt8 := 0
  vuhAtlasId : UInt8 := 0
  deriving DecidableEq, Repr, Inhabited

/-- `struct vuh_ovd`. -/
structure VuhOvd where
  vuhV3cParameterSetId : UInt8 := 0
  vuhAtlasId : UInt8 := 0
  deriving DecidableEq, Repr, Inhabited

/-- `struct vuh_gvd`. -/
structure VuhGvd where
  vuhV3cParameterSetId : UInt8 := 0
  vuhAtlasId : UInt8 := 0
  vuhMapIndex : UInt8 := 0
  vuhAuxiliaryVideoFlag : Bool := false
  deriving DecidableEq, Repr, Inhabited

/-- `struct vuh_avd`. -/
structure VuhAvd where
  vuhV3cParameterSetId : UInt8 := 0
  vuhAtlasId : UInt8 := 0
  vuhAttributeIndex : UInt8 := 0
  vuhAttributePartitionIndex : UInt8 := 0
  vuhMapIndex : UInt8 := 0
  vuhAuxiliaryVideoFlag : Bool := false
  deriving DecidableEq, Repr, Inhabited

/-- `struct vuh_pvd`. -/
structure VuhPvd where
  vuhV3cParameterSetId : UInt8 := 0
  vuhAtlasId : UInt8 := 0
  deriving DecidableEq, Repr, Inhabited

/-- `struct vuh_cad`. -/
structure VuhCad where
  vuhV3cParameterSetId : UInt8 := 0
  deriving DecidableEq, Repr, Inhabited

/-- The anonymous union of `v3c_unit_header`, by active member. -/
inductive Vuh where
  | ad (h : VuhAd)
  | ovd (h : VuhOvd)
  | gvd (h : VuhGvd)
  | avd (h : VuhAvd)
  | pvd (h : VuhPvd)
  | cad (h : VuhCad)
  deriving DecidableEq, Repr, Inhabited

namespace Vuh

/-- The unit type whose member this is. -/
def unitType : Vuh → V3cUnitType
  | .ad _ => .ad
  | .ovd _ => .ovd
  | .gvd _ => .gvd
  | .avd _ => .avd
  | .pvd _ => .pvd
  | .cad _ => .cad

/-- The read `header.ad.vuh_v3c_parameter_set_id`. -/
def adParameterSetId : Vuh → UInt8
  | .ad h => h.vuhV3cParameterSetId
  | .ovd h => h.vuhV3cParameterSetId
  | .gvd h => h.vuhV3cParameterSetId
  | .avd h => h.vuhV3cParameterSetId
  | .pvd h => h.vuhV3cParameterSetId
  | .cad h => h.vuhV3cParameterSetId

/-- The read `header.ad.vuh_atlas_id`.  `vuh_cad` ends before this field; the
source does not make the read for it. -/
def adAtlasId : Vuh → UInt8
  | .ad h => h.vuhAtlasId
  | .ovd h => h.vuhAtlasId
  | .gvd h => h.vuhAtlasId
  | .avd h => h.vuhAtlasId
  | .pvd h => h.vuhAtlasId
  | .cad _ => 0

/-- The member `header.gvd`, read only for `V3C_GVD`. -/
def asGvd : Vuh → VuhGvd
  | .gvd h => h
  | _ => {}

/-- The member `header.avd`, read only for `V3C_AVD`. -/
def asAvd : Vuh → VuhAvd
  | .avd h => h
  | _ => {}

end Vuh

/-- `struct v3c_unit_header`. -/
structure V3cUnitHeader where
  vuhUnitType : UInt8 := 0
  vuh : Vuh := .ad {}
  deriving DecidableEq, Repr, Inhabited

namespace V3cUnitHeader

/-- A header whose active member is the one its unit type names. -/
def ofVuh (u : Vuh) : V3cUnitHeader := ⟨u.unitType.code, u⟩

@[simp] theorem ofVuh_vuhUnitType (u : Vuh) :
    (ofVuh u).vuhUnitType = u.unitType.code := rfl

end V3cUnitHeader

/-! ## Decoding -/

/-- Bits of a flag. -/
def flagByte (b : Bool) : UInt8 := if b then 1 else 0

/-- `vuh_v3c_parameter_set_id`: three bits of the first byte, one of the second. -/
def parameterSetIdBits (b0 b1 : UInt8) : UInt8 :=
  ((b0 &&& 0b111) <<< 1) ||| ((b1 &&& 0b10000000) >>> 7)

/-- `vuh_atlas_id`: the six middle bits of the second byte. -/
def atlasIdBits (b1 : UInt8) : UInt8 := (b1 &&& 0b01111110) >>> 1

/-- The unit types for which `parse_v3c_header` reads the parameter set id. -/
def hasParameterSetId (t : Option V3cUnitType) : Bool :=
  t = some .avd || t = some .gvd || t = some .ovd || t = some .ad || t = some .cad
    || t = some .pvd

/-- The unit types for which `parse_v3c_header` reads the atlas id. -/
def hasAtlasId (t : Option V3cUnitType) : Bool :=
  t = some .avd || t = some .gvd || t = some .ovd || t = some .ad || t = some .pvd

/-- `parse_v3c_header(hdr, buf, ptr)`.  Each field is read from memory at the
point where the source reads it, so a header cut off by the end of the file
faults exactly when its own type needs a missing byte. -/
def parseV3cHeader (hdr : V3cUnitHeader) (buf : List UInt8) (ptr : Nat) :
    Except MemFault V3cUnitHeader := do
  let b0 ← loadByte buf ptr
  let vuhUnitType := (b0 &&& 0b11111000) >>> 3
  let t := V3cUnitType.ofCode vuhUnitType
  let vuhV3cParameterSetId ←
    if hasParameterSetId t then do
      let b1 ← loadByte buf (ptr + 1)
      pure (parameterSetIdBits b0 b1)
    else pure 0
  let vuhAtlasId ←
    if hasAtlasId t then do
      let b1 ← loadByte buf (ptr + 1)
      pure (atlasIdBits b1)
    else pure 0
  match t with
  | some .ad =>
    pure ⟨vuhUnitType, .ad { vuhV3cParameterSetId, vuhAtlasId }⟩
  | some .ovd =>
    pure ⟨vuhUnitType, .ovd { vuhV3cParameterSetId, vuhAtlasId }⟩
  | some .gvd => do
    let b1 ← loadByte buf (ptr + 1)
    let b2 ← loadByte buf (ptr + 2)
    pure ⟨vuhUnitType, .gvd {
      vuhV3cParameterSetId, vuhAtlasId
      vuhMapIndex := ((b1 &&& 0b1) <<< 3) ||| ((b2 &&& 0b11100000) >>> 5)
      vuhAuxiliaryVideoFlag := ((b2 &&& 0b00010000) >>> 4) != 0 }⟩
  | some .avd => do
    let b1 ← loadByte buf (ptr + 1)
    let b2 ← loadByte buf (ptr + 2)
    let b3 ← loadByte buf (ptr + 3)
    pure ⟨vuhUnitType, .avd {
      vuhV3cParameterSetId, vuhAtlasId
      vuhAttributeIndex := ((b1 &&& 0b1) <<< 6) ||| ((b2 &&& 0b11111100) >>> 2)
      -- the high two bits are not shifted up before the low three are or-ed in
      vuhAttributePartitionIndex := (b2 &&& (0b11 : UInt8)) ||| ((b3 &&& 0b11100000) >>> 5)
      vuhMapIndex := (b3 &&& 0b00011110) >>> 1
      vuhAuxiliaryVideoFlag := (b3 &&& 0b1) != 0 }⟩
  | some .pvd =>
    pure ⟨vuhUnitType, .pvd { vuhV3cParameterSetId, vuhAtlasId }⟩
  | some .cad =>
    pure ⟨vuhUnitType, .cad { vuhV3cParameterSetId }⟩
  | some .vps | none => pure { hdr with vuhUnitType }

/-! ## Encoding -/

/-- The local array `v3c_header` of `create_v3c_unit` when it is copied to the
output buffer. -/
def v3cHeader (hdr : V3cUnitHeader) : List UInt8 :=
  let v3cType := hdr.vuhUnitType
  let paramSetId := hdr.vuh.adParameterSetId
  let h0 := (v3cType <<< 3) ||| ((paramSetId &&& 0b1110) >>> 1)
  let h1 := (paramSetId &&& 0b1) <<< 7
  let h1 :=
    if v3cType ≠ V3cUnitType.cad.code then
      h1 ||| ((hdr.vuh.adAtlasId &&& 0b111111) <<< 1)
    else h1
  if v3cType = V3cUnitType.gvd.code then
    let mapIndex := hdr.vuh.asGvd.vuhMapIndex
    let auxiliaryVideoFlag := hdr.vuh.asGvd.vuhAuxiliaryVideoFlag
    [h0, h1 ||| ((mapIndex &&& 0b1000) >>> 3),
      ((mapIndex &&& 0b111) <<< 5) ||| (flagByte auxiliaryVideoFlag <<< 4), 0]
  else if v3cType = V3cUnitType.avd.code then
    let vuhAttributeIndex := hdr.vuh.asAvd.vuhAttributeIndex
    let vuhAttributePartitionIndex := hdr.vuh.asAvd.vuhAttributePartitionIndex
    let vuhMapIndex := hdr.vuh.asAvd.vuhMapIndex
    let vuhAuxiliaryVideoFlag := hdr.vuh.asAvd.vuhAuxiliaryVideoFlag
    -- bit 6 is isolated and then shifted out: this term is always zero
    [h0, h1 ||| ((vuhAttributeIndex &&& 0b1000000) >>> 7),
      ((vuhAttributeIndex &&& 0b111111) <<< 2)
        ||| ((vuhAttributePartitionIndex &&& 0b11000) >>> 3),
      ((vuhAttributePartitionIndex &&& 0b111) <<< 5) ||| (vuhMapIndex <<< 1)
        ||| flagByte vuhAuxiliaryVideoFlag]
  else [h0, h1, 0, 0]

@[simp] theorem length_v3cHeader (hdr : V3cUnitHeader) :
    (v3cHeader hdr).length = 4 := by
  unfold v3cHeader
  dsimp only
  split_ifs <;> rfl

end RtpBenchmarks.V3c
