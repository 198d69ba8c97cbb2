import RtpBenchmarks.V3c.Bounds

set_option autoImplicit false

/-!
# V3C: what the file parser returns

`mmap_v3c_file` returns a `bool`, and its callers can only tell by it whether the map is
that of the file.  `Readable` says of the bytes that the parser gets through them: the unit
size precision is supported wherever a unit follows, so is the NAL size precision of every
atlas unit with a NAL unit, and what is read lies in the file.

The two error exits return `EXIT_FAILURE`, which as a `bool` is `true`.
-/

namespace RtpBenchmarks.V3c

open RtpBenchmarks.Foundation

/-! ## Readable files -/

/-- The payload of a unit with header at `s` and declared size `size` is read to its
end. -/
def PayloadReadable (cbuf : List UInt8) (s size : Nat) : Option V3cUnitType → Prop
  | some .vps => True
  | some .ad | some .cad => s + V3C_HDR_LEN < cbuf.length ∧
      EveryNal cbuf (precisionOf (byteAt cbuf (s + V3C_HDR_LEN))) (s + size)
        (s + V3C_HDR_LEN + 1) fun x =>
          NalPrecisionSupported (precisionOf (byteAt cbuf (s + V3C_HDR_LEN))) ∧
            x + precisionOf (byteAt cbuf (s + V3C_HDR_LEN)) ≤ cbuf.length
  | _ => EveryNal cbuf 4 (s + size) (s + V3C_HDR_LEN) fun x => x + 4 ≤ cbuf.length

/-- The unit whose size field is at `ptr` is read to its end. -/
def UnitReadable (cbuf : List UInt8) (p ptr : Nat) : Prop :=
  (p = 2 ∨ p = 3) ∧ ptr + p + headerReads (typeAt cbuf (ptr + p)) ≤ cbuf.length ∧
    PayloadReadable cbuf (ptr + p) (bigEndianAt cbuf ptr p) (typeAt cbuf (ptr + p))

/-- Every unit from the size field at `first` on is read to its end. -/
def EveryUnitReadable (cbuf : List UInt8) (p first : Nat) : Prop :=
  ∀ x, Visits (· < cbuf.length) (fun x => x + p + bigEndianAt cbuf x p) first x →
    x < cbuf.length → UnitReadable cbuf p x

/-- The whole file parses into units. -/
def Readable (cbuf : List UInt8) : Prop :=
  0 < cbuf.length ∧ EveryUnitReadable cbuf (precisionOf (byteAt cbuf 0)) 1

section Units

variable {cbuf : List UInt8} {p ptr s size : Nat} {t : Option V3cUnitType}

theorem everyUnitReadable_iff :
    EveryUnitReadable cbuf p ptr ↔
      (ptr < cbuf.length → UnitReadable cbuf p ptr ∧
        EveryUnitReadable cbuf p (ptr + p + bigEndianAt cbuf ptr p)) := by
  unfold EveryUnitReadable
  rw [forall_visits_iff]
  tauto

theorem payloadReadable_atlas (ht : t = some .ad ∨ t = some .cad) :
    PayloadReadable cbuf s size t ↔ s + V3C_HDR_LEN < cbuf.length ∧
      EveryNal cbuf (precisionOf (byteAt cbuf (s + V3C_HDR_LEN))) (s + size)
        (s + V3C_HDR_LEN + 1) fun x =>
          NalPrecisionSupported (precisionOf (byteAt cbuf (s + V3C_HDR_LEN))) ∧
            x + precisionOf (byteAt cbuf (s + V3C_HDR_LEN)) ≤ cbuf.length := by
  rcases ht with rfl | rfl <;> exact Iff.rfl

/-- The payloads that are parsed are the readable ones. -/
theorem unitNals_ok_iff :
    (∃ ns, unitNals cbuf t s size = .ok ns) ↔ PayloadReadable cbuf s size t := by
  by_cases hatlas : t = some .ad ∨ t = some .cad
  · rw [unitNals_atlas hatlas, payloadReadable_atlas hatlas]
    by_cases hlt : s + V3C_HDR_LEN < cbuf.length
    · rw [byteAt_of_lt hlt, access_ok, ok_bind]
      by_cases hq : NalPrecisionSupported (precisionOf (byteAt cbuf (s + V3C_HDR_LEN)))
      · rw [nalLoop_ok_iff hq]
        simp [hlt, hq]
      · rw [nalLoop_unsupported hq, everyNal_iff]
        by_cases hnal : s + V3C_HDR_LEN + 1 < s + size <;> simp [hlt, hq, hnal]
    · rw [loadByte_of_ge (Nat.not_lt.mp hlt)]
      refine iff_of_false ?_ fun h => hlt h.1
      rintro ⟨ns, h⟩
      cases h
  · have h4 : NalPrecisionSupported 4 := Or.inr (Or.inr rfl)
    cases t with
    | none => exact nalLoop_ok_iff h4
    | some t =>
      cases t with
      | vps => exact ⟨fun _ => trivial, fun _ => ⟨_, rfl⟩⟩
      | ad => exact absurd (Or.inl rfl) hatlas
      | cad => exact absurd (Or.inr rfl) hatlas
      | ovd | gvd | avd | pvd => exact nalLoop_ok_iff h4

theorem headerReads_pos (t : Option V3cUnitType) : 0 < headerReads t := by
  cases t with
  | none => decide
  | some t => cases t <;> decide

/-- The units that are scanned are the readable ones. -/
theorem scanUnit_ok_iff :
    (∃ u, scanUnit cbuf p ptr = .ok u) ↔ UnitReadable cbuf p ptr := by
  have hpos := headerReads_pos (typeAt cbuf (ptr + p))
  simp only [scanUnit_eq_ok_iff, UnitReadable, ← unitNals_ok_iff, readUnitSize_eq]
  constructor
  · rintro ⟨u, size, hdr, ns, hsize, hparse, hnals, -⟩
    split_ifs at hsize with hlt hp
    cases hsize
    have hhdr : ptr + p + headerReads (typeAt cbuf (ptr + p)) ≤ cbuf.length := by
      by_contra hgt
      rw [parseV3cHeader_of_gt (Nat.not_le.mp hgt)] at hparse
      cases hparse
    obtain ⟨hdr', hparse', htype⟩ := parseV3cHeader_of_le hhdr
    rw [hparse] at hparse'
    cases hparse'
    rw [htype] at hnals
    exact ⟨hp, hhdr, ns, hnals⟩
  · rintro ⟨hp, hhdr, ns, hnals⟩
    obtain ⟨hdr, hparse, htype⟩ := parseV3cHeader_of_le hhdr
    refine ⟨_, bigEndianAt cbuf ptr p, hdr, ns, ?_, hparse, ?_, rfl⟩
    · rw [if_neg (by omega), if_pos hp]
    · rw [htype]
      exact hnals

/-- The trace ends at the end of the file if and only if every unit is readable. -/
theorem scanUnits_none_iff :
    (scanUnits cbuf cbuf.length p ptr).2 = none ↔ EveryUnitReadable cbuf p ptr := by
  fun_induction scanUnits cbuf cbuf.length p ptr with
  | case1 ptr hend =>
    rw [everyUnitReadable_iff]
    simp [Nat.not_lt.mpr hend]
  | case2 ptr hend e he =>
    rw [everyUnitReadable_iff, ← scanUnit_ok_iff, he]
    simp [Nat.not_le.mp hend]
  | case3 ptr hend u hu rest ih =>
    have hlt : ptr < cbuf.length := Nat.not_le.mp hend
    rw [everyUnitReadable_iff, ← scanUnit_ok_iff, ← (scanUnit_ok hu).1, ← ih]
    simp [hlt, hu, rest]

end Units

/-! ## The result -/

/-- The call tells by its result whether the whole file was parsed, and leaves the map
alone when not. -/
def ReportsFailure (cbuf : List UInt8) (m : V3cFileMap) : Prop :=
  ∃ ok m', mmapV3cFile cbuf cbuf.length m = .ok (ok, m') ∧
    (ok = true ↔ Readable cbuf) ∧ (ok = false → m' = m)

/-- The call never returns `false`, so it tells the truth exactly of the files that it
parses. -/
theorem mmapV3cFile_reportsFailure_iff (cbuf : List UInt8) (m : V3cFileMap) :
    ReportsFailure cbuf m ↔ Readable cbuf := by
  constructor
  · rintro ⟨ok, m', hcall, hok, -⟩
    have hpos : 0 < cbuf.length := by
      by_contra h
      rw [mmapV3cFile, loadByte_of_ge (Nat.not_lt.mp h)] at hcall
      cases hcall
    rw [mmapV3cFile_eq cbuf hpos] at hcall
    split at hcall
    · cases hcall
    · cases hcall
      exact hok.mp rfl
  · intro h
    refine ⟨true, ((recordedUnits cbuf).map (·.info)).foldl V3cFileMap.pushUnit m, ?_,
      iff_of_true rfl h, fun hfalse => by cases hfalse⟩
    rw [mmapV3cFile_eq cbuf h.1, scanUnits_none_iff.mpr h.2]

/-- Two files that are not parsed and for which the call returns `true`.  The first has an
unsupported unit size precision.  In the second an atlas unit with an unsupported NAL size
precision follows a parameter set, which is left in the map. -/
theorem mmapV3cFile_failure_not_reported :
    mmapV3cFile [0x00, 0x00] 2 {} = .ok (true, {}) ∧ ¬ Readable [0x00, 0x00] ∧
    (∃ m, mmapV3cFile [0x20, 0, 1, 0x00, 0, 6, 0x08, 0, 0, 0, 0x00, 0] 12 {} = .ok (true, m) ∧
      m.vpsUnits.map (·.nalInfos) = [[{ location := 3, size := 1 }]]) ∧
    ¬ Readable [0x20, 0, 1, 0x00, 0, 6, 0x08, 0, 0, 0, 0x00, 0] := by
  refine ⟨rfl, ?_, ⟨_, rfl, rfl⟩, ?_⟩
  · rintro ⟨-, h⟩
    have := scanUnits_none_iff.mpr h
    cases this
  · rintro ⟨-, h⟩
    have := scanUnits_none_iff.mpr h
    cases this

end RtpBenchmarks.V3c
