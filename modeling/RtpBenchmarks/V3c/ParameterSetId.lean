import RtpBenchmarks.V3c.HeaderCodec
import RtpBenchmarks.V3c.Receive

set_option autoImplicit false

/-!
# V3C: the parameter set ids of collected units

`copy_rtp_payload` numbers the units of a stream: the id of a unit is its index, as a
`uint8_t`.  A header has four bits for it.  `create_v3c_unit` writes the low four, and
`parse_v3c_header` can read no more.
-/

namespace RtpBenchmarks.V3c

open RtpBenchmarks.Foundation

/-! ## What is stored -/

/-- The fields of the unit that was opened with an id. -/
def openedVuh (t : V3cUnitType) (id : UInt8) : Vuh :=
  match t with
  | .ovd => .ovd { vuhV3cParameterSetId := id }
  | .gvd => .gvd { vuhV3cParameterSetId := id }
  | .avd => .avd { vuhV3cParameterSetId := id }
  | .ad | .vps | .pvd | .cad => .ad { vuhV3cParameterSetId := id }

/-- The headers of the first `n` units of a stream. -/
def openedHeaders (t : V3cUnitType) (n : Nat) : List V3cUnitHeader :=
  (List.range n).map fun k => .ofVuh (openedVuh t (UInt8.ofNat k))

theorem openedUnit_header {t : V3cUnitType} (ht : t.hasStream = true) {back : V3cUnitInfo}
    (hback : back.header.vuhUnitType = t.code) (size : Nat) :
    (openedUnit back size).header = .ofVuh (openedVuh t (UInt8.ofNat size)) := by
  unfold openedUnit
  dsimp only
  rw [hback, V3cUnitType.ofCode_code]
  cases t with
  | ad | ovd | gvd | avd => rfl
  | vps | pvd | cad => cases ht

/-- A call leaves the headers as they are, and may open a unit behind them. -/
theorem copyRtpPayload_headers {us us' : List V3cUnitInfo} {maxSize : Nat} {frame : RtpFrame}
    (h : copyRtpPayload us maxSize frame = .ok us') :
    us'.map (·.header) = us.map (·.header) ∨
      ∃ back ∈ us, us'.map (·.header) =
        us.map (·.header) ++ [(openedUnit back us.length).header] := by
  obtain rfl | ⟨us, u, rfl⟩ := List.eq_nil_or_concat' us
  · cases h
  · rw [copyRtpPayload_concat] at h
    split_ifs at h with hfull <;> cases h
    · refine Or.inr ⟨u, by simp, ?_⟩
      rw [List.map_append, List.map_singleton, V3cUnitInfo.fill_header, List.length_append,
        List.length_singleton]
    · refine Or.inl ?_
      rw [List.map_append, List.map_append, List.map_singleton, List.map_singleton,
        V3cUnitInfo.fill_header]

/-- In a reachable state the units of a stream are numbered. -/
theorem Reachable.headers {m : V3cFileMap} (h : Reachable m) {t : V3cUnitType}
    (ht : t.hasStream = true) :
    (m.units t).map (·.header) = openedHeaders t (m.units t).length := by
  induction h with
  | init =>
    cases t with
    | ad | ovd | gvd | avd => rfl
    | vps | pvd | cad => cases ht
  | @copy m t' maxSize frame units hm _ hcopy ih =>
    rw [V3cFileMap.units_setUnits]
    split_ifs with heq
    · subst heq
      rcases copyRtpPayload_headers hcopy with hsame | ⟨back, hback, hopened⟩
      · have hlen : units.length = (m.units t).length := by
          simpa using congrArg List.length hsame
        rw [hsame, ih, hlen]
      · have hlen : units.length = (m.units t).length + 1 := by
          simpa using congrArg List.length hopened
        rw [hopened, ih, hlen, openedUnit_header ht (hm.packed ht back hback).2]
        simp [openedHeaders, List.range_succ]
    · exact ih
  | vps _ _ _ ih =>
    rw [V3cFileMap.units_setUnits, if_neg (by rintro rfl; cases ht)]
    exact ih

/-- The header of unit `k`. -/
theorem Reachable.header_getElem {m : V3cFileMap} (h : Reachable m) {t : V3cUnitType}
    (ht : t.hasStream = true) {k : Nat} {u : V3cUnitInfo} (hu : (m.units t)[k]? = some u) :
    u.header = .ofVuh (openedVuh t (UInt8.ofNat k)) := by
  have hk := (List.getElem?_eq_some_iff.mp hu).1
  have hheader := congrArg (·[k]?) (h.headers ht)
  simp only [List.getElem?_map, hu, openedHeaders, List.getElem?_range hk, Option.map_some,
    Option.some.injEq] at hheader
  exact hheader

/-- The states that any number of payloads on one stream lead to. -/
theorem Reachable.foldlM {m : V3cFileMap} (h : Reachable m) {t : V3cUnitType}
    (ht : t.hasStream = true) {maxSize : Nat} {frames : List RtpFrame}
    {units : List V3cUnitInfo}
    (hrun : frames.foldlM (fun us f => copyRtpPayload us maxSize f) (m.units t) = .ok units) :
    Reachable (m.setUnits units t) := by
  induction frames generalizing m with
  | nil =>
    obtain rfl : m.units t = units := Except.ok.inj hrun
    cases t <;> exact h
  | cons frame frames ih =>
    rw [List.foldlM_cons] at hrun
    obtain ⟨us, hcopy, hrest⟩ := bind_eq_ok_iff.mp hrun
    have hunits : (m.setUnits us t).units t = us := by simp
    have hset : (m.setUnits us t).setUnits units t = m.setUnits units t := by cases t <;> rfl
    rw [← hset]
    exact ih (.copy h ht hcopy) (by rw [hunits]; exact hrest)

/-! ## What is written and read back -/

theorem parameterSetIdBits_masked {c p a m : UInt8} (hm : m.toNat < 2 ^ 1) :
    parameterSetIdBits (typeByte c p) (idByte p a m) = p &&& 0b1111 := by
  have hclear := bit_eq_false hm
  apply eq_of_bits
  intro i hi
  interval_cases i <;> simp [parameterSetIdBits, typeByte, idByte, hclear]

/-- An id survives the four bits of the format if and only if it fits them. -/
theorem masked_eq_iff {p : UInt8} : p &&& 0b1111 = p ↔ p.toNat < 2 ^ 4 := by
  constructor
  · intro h
    rw [← h]
    exact width_and (by decide)
  · intro h
    have hclear := bit_eq_false h
    apply eq_of_bits
    intro i hi
    interval_cases i <;> simp [hclear]

/-- The bytes of an opened unit's header. -/
theorem v3cHeader_opened {t : V3cUnitType} (ht : t.hasStream = true) (id : UInt8) :
    v3cHeader (.ofVuh (openedVuh t id)) = [typeByte t.code id, idByte id 0 0, 0, 0] := by
  cases t with
  | ad => exact v3cHeader_ad _
  | ovd => exact v3cHeader_ovd _
  | gvd => simp [openedVuh, v3cHeader_gvd, flagByte, V3cUnitType.code]
  | avd => simp [openedVuh, v3cHeader_avd, flagByte, V3cUnitType.code]
  | vps | pvd | cad => cases ht

/-- The id that is parsed from them. -/
theorem headerOf_opened {t : V3cUnitType} (ht : t.hasStream = true) (id : UInt8) :
    (headerOf (typeByte t.code id) (idByte id 0 0) 0 0).vuh.adParameterSetId =
      id &&& 0b1111 := by
  have htype : (typeByte t.code id &&& 0b11111000) >>> 3 = t.code :=
    typeBits_typeByte (by cases t <;> decide)
  rw [← parameterSetIdBits_masked (c := t.code) (p := id) (a := 0) (m := 0) (by decide)]
  cases t with
  | ad | ovd | gvd | avd => rw [headerOf_eq_ofVuh htype rfl]; rfl
  | vps | pvd | cad => cases ht

/-- Wherever `create_v3c_unit` writes the unit, `parse_v3c_header` finds the stored id. -/
def IdSurvives (u : V3cUnitInfo) : Prop :=
  ∀ buf ptr p q, ptr + (unitImage u p q).length ≤ buf.length →
    ∃ u' buf' ptr' hdr, createV3cUnit u buf ptr p q = .ok (u', buf', ptr') ∧
      parseV3cHeader {} buf' (ptr + p) = .ok hdr ∧
      hdr.vuh.adParameterSetId = u.header.vuh.adParameterSetId

theorem openedVuh_id (t : V3cUnitType) (id : UInt8) :
    (openedVuh t id).adParameterSetId = id := by
  cases t <;> rfl

theorem idSurvives_iff {t : V3cUnitType} (ht : t.hasStream = true) {u : V3cUnitInfo}
    (hlive : u.Live) {id : UInt8} (hu : u.header = .ofVuh (openedVuh t id)) :
    IdSurvives u ↔ id.toNat < 2 ^ 4 := by
  have hid : u.header.vuh.adParameterSetId = id := by
    rw [hu]
    exact openedVuh_id t id
  -- what is parsed, wherever the unit is written
  have hparse : ∀ buf ptr p q, ptr + (unitImage u p q).length ≤ buf.length →
      ∃ u' buf' ptr' hdr, createV3cUnit u buf ptr p q = .ok (u', buf', ptr') ∧
        parseV3cHeader {} buf' (ptr + p) = .ok hdr ∧
        hdr.vuh.adParameterSetId = id &&& 0b1111 := by
    intro buf ptr p q hcap
    have hcreate := createV3cUnit_eq hlive hcap
    have hbytes := createV3cUnit_header hcreate
    rw [hu, v3cHeader_opened ht] at hbytes
    exact ⟨_, _, _, _, hcreate, parseV3cHeader_of_take hbytes, headerOf_opened ht id⟩
  rw [← masked_eq_iff]
  constructor
  · intro h
    have hroom : 0 + (unitImage u 0 0).length ≤ (unitImage u 0 0).length := by omega
    obtain ⟨u', buf', ptr', hdr, hcreate, hhdr, hsame⟩ := h _ 0 0 0 hroom
    obtain ⟨v', mem', end', hdr', hcreate', hhdr', hmasked⟩ := hparse _ 0 0 0 hroom
    rw [hcreate] at hcreate'
    cases hcreate'
    rw [hhdr] at hhdr'
    cases hhdr'
    rw [← hmasked, hsame, hid]
  · intro h buf ptr p q hcap
    obtain ⟨u', buf', ptr', hdr, hcreate, hhdr, hmasked⟩ := hparse buf ptr p q hcap
    exact ⟨u', buf', ptr', hdr, hcreate, hhdr, by rw [hmasked, h, hid]⟩

theorem inWidths_opened_iff {t : V3cUnitType} {id : UInt8} :
    (openedVuh t id).InWidths ↔ id.toNat < 2 ^ 4 := by
  cases t <;> simp [openedVuh, Vuh.InWidths]

/-- In a reachable state the id of a unit survives, and all its fields are within their
widths, if and only if the unit is among the first 16 of each 256; the ids of all units do if
and only if no stream has more than 16. -/
theorem reachable_idSurvives_iff {m : V3cFileMap} (h : Reachable m) :
    (∀ t, t.hasStream = true → ∀ k u, (m.units t)[k]? = some u →
      (IdSurvives u ↔ k % 256 < 16) ∧ (u.header.vuh.InWidths ↔ k % 256 < 16)) ∧
    ((∀ t, t.hasStream = true → ∀ u ∈ m.units t, IdSurvives u) ↔
      ∀ t, t.hasStream = true → (m.units t).length ≤ 16) := by
  have hunit : ∀ t, t.hasStream = true → ∀ k u, (m.units t)[k]? = some u →
      (IdSurvives u ↔ k % 256 < 16) ∧ (u.header.vuh.InWidths ↔ k % 256 < 16) := by
    intro t ht k u hu
    have hheader := h.header_getElem ht hu
    have hlive := (h.packed ht u (List.mem_of_getElem? hu)).1.live
    have hid : (UInt8.ofNat k).toNat < 2 ^ 4 ↔ k % 256 < 16 := by
      rw [UInt8.toNat_ofNat']
      omega
    rw [idSurvives_iff ht hlive hheader, hheader]
    exact ⟨hid, inWidths_opened_iff.trans hid⟩
  refine ⟨hunit, ?_⟩
  constructor
  · intro hall t ht
    by_contra hlong
    have hlt : 16 < (m.units t).length := Nat.not_le.mp hlong
    have hu := List.getElem?_eq_getElem hlt
    have := (hunit t ht 16 _ hu).1.mp (hall t ht _ (List.getElem_mem hlt))
    omega
  · intro hshort t ht u hu
    obtain ⟨k, hk, rfl⟩ := List.getElem_of_mem hu
    have := hshort t ht
    exact (hunit t ht k _ (List.getElem?_eq_getElem hk)).1.mpr (by omega)

/-- The unit that `init_mmap` opens for the atlas. -/
theorem reachable_idSurvives_first : IdSurvives { header := .ofVuh (.ad {}) } :=
  ((reachable_idSurvives_iff .init).1 .ad rfl 0 _ rfl).1.mpr (by decide)

/-- The 17th unit of a stream with one NAL unit each has the id 16, which is read back
as 0. -/
theorem reachable_idSurvives_not :
    let unit (k : Nat) : V3cUnitInfo :=
      { header := .ofVuh (.ad { vuhV3cParameterSetId := UInt8.ofNat k })
        nalInfos := [{ size := 1, buf := some [7] }], ptr := 1, ready := true }
    Reachable (initMmap.setUnits ((List.range 17).map unit) .ad) ∧
      (createV3cUnit (unit 16) (List.replicate 11 0) 0 3 2 =
        .ok ((unit 16).released, [0, 0, 8, 8, 0, 0, 0, 32, 0, 1, 7], 11)) ∧
      parseV3cHeader {} [0, 0, 8, 8, 0, 0, 0, 32, 0, 1, 7] 3 = .ok (.ofVuh (.ad {})) ∧
      ¬ IdSurvives (unit 16) := by
  intro unit
  have hrun : (List.replicate 17 ⟨[7]⟩).foldlM (fun us f => copyRtpPayload us 1 f)
      (initMmap.units .ad) = .ok ((List.range 17).map unit) := by decide +kernel
  have hcreate : createV3cUnit (unit 16) (List.replicate 11 0) 0 3 2 =
      .ok ((unit 16).released, [0, 0, 8, 8, 0, 0, 0, 32, 0, 1, 7], 11) := by decide +kernel
  have hlive : (unit 16).Live := by
    intro n hn
    rw [List.mem_singleton.mp hn]
    exact ⟨_, rfl, rfl⟩
  refine ⟨Reachable.init.foldlM rfl hrun, hcreate, by decide +kernel, fun h => ?_⟩
  exact absurd ((idSurvives_iff (t := .ad) rfl hlive rfl).mp h) (by decide)

end RtpBenchmarks.V3c
