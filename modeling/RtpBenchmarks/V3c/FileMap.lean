import RtpBenchmarks.V3c.Header

set_option autoImplicit false

/-!
# V3C: the file map (`struct v3c_file_map`)

Both ends of the V-PCC benchmark describe a V3C file by the same structure: the
sender fills it by parsing a file, the receiver by collecting RTP payloads.

A `char*` that owns an allocation is an `Option (List UInt8)`: `none` is a null
pointer or one whose target was given back with `delete[]`, and dereferencing it
is the fault `deadPointer`.
-/

namespace RtpBenchmarks.V3c

open RtpBenchmarks.Foundation

/-- `struct nal_info`. -/
structure NalInfo where
  location : Nat := 0
  size : Nat := 0
  buf : Option (List UInt8) := none
  deriving DecidableEq, Repr, Inhabited

/-- `struct v3c_unit_info`. -/
structure V3cUnitInfo where
  header : V3cUnitHeader
  nalInfos : List NalInfo := []
  ptr : Nat := 0
  ready : Bool := false
  deriving DecidableEq, Repr, Inhabited

/-- `struct v3c_file_map`. -/
structure V3cFileMap where
  vpsUnits : List V3cUnitInfo := []
  adUnits : List V3cUnitInfo := []
  ovdUnits : List V3cUnitInfo := []
  gvdUnits : List V3cUnitInfo := []
  avdUnits : List V3cUnitInfo := []
  pvdUnits : List V3cUnitInfo := []
  cadUnits : List V3cUnitInfo := []
  deriving DecidableEq, Repr, Inhabited

namespace V3cFileMap

/-- The unit list of a type. -/
def units (m : V3cFileMap) : V3cUnitType → List V3cUnitInfo
  | .vps => m.vpsUnits
  | .ad => m.adUnits
  | .ovd => m.ovdUnits
  | .gvd => m.gvdUnits
  | .avd => m.avdUnits
  | .pvd => m.pvdUnits
  | .cad => m.cadUnits

/-- Replace the unit list of a type. -/
def setUnits (m : V3cFileMap) (us : List V3cUnitInfo) : V3cUnitType → V3cFileMap
  | .vps => { m with vpsUnits := us }
  | .ad => { m with adUnits := us }
  | .ovd => { m with ovdUnits := us }
  | .gvd => { m with gvdUnits := us }
  | .avd => { m with avdUnits := us }
  | .pvd => { m with pvdUnits := us }
  | .cad => { m with cadUnits := us }

@[simp] theorem units_setUnits (m : V3cFileMap) (us : List V3cUnitInfo)
    (t t' : V3cUnitType) :
    (m.setUnits us t).units t' = if t' = t then us else m.units t' := by
  cases t <;> cases t' <;> rfl

/-- The `push_back` of the switch at the end of `mmap_v3c_file`: a unit of a
reserved type goes nowhere. -/
def pushUnit (m : V3cFileMap) (unit : V3cUnitInfo) : V3cFileMap :=
  match V3cUnitType.ofCode unit.header.vuhUnitType with
  | some t => m.setUnits (m.units t ++ [unit]) t
  | none => m

theorem units_pushUnit (m : V3cFileMap) (unit : V3cUnitInfo) (t : V3cUnitType) :
    (m.pushUnit unit).units t =
      m.units t ++ if V3cUnitType.ofCode unit.header.vuhUnitType = some t
        then [unit] else [] := by
  unfold pushUnit
  cases h : V3cUnitType.ofCode unit.header.vuhUnitType with
  | none => simp
  | some t' =>
    by_cases ht : t = t'
    · subst ht
      simp
    · have : ¬ t' = t := fun h => ht h.symm
      simp [ht, this]

/-- Pushing a list of units appends to each list the units of its type, in
order. -/
theorem units_foldl_pushUnit (us : List V3cUnitInfo) (m : V3cFileMap)
    (t : V3cUnitType) :
    (us.foldl pushUnit m).units t =
      m.units t ++ us.filter
        (fun u => V3cUnitType.ofCode u.header.vuhUnitType = some t) := by
  induction us generalizing m with
  | nil => simp
  | cons u us ih =>
    rw [List.foldl_cons, ih, units_pushUnit, List.append_assoc]
    by_cases h : V3cUnitType.ofCode u.header.vuhUnitType = some t <;> simp [h]

end V3cFileMap

end RtpBenchmarks.V3c
