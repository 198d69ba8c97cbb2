import RtpBenchmarks.Foundation.Runs
import RtpBenchmarks.V3c.Write

set_option autoImplicit false

/-!
# V3C: collecting RTP payloads (`init_mmap`, `copy_rtp_payload`)

The receiving side keeps one list of units per stream.  A received NAL unit goes
into the last unit of its list; once that unit holds `max_size` NAL units it is
ready, and the next payload opens another.

`V3cUnitInfo.Packed` is what holds of every unit at every time: its size
accumulator is the sum of its NAL sizes, each NAL unit is located behind the ones
before it, and every stored payload is live.  `Collected` is what holds of a list:
all its units but the last are full, and together they hold exactly the payloads
received.
-/

namespace RtpBenchmarks.V3c

open RtpBenchmarks.Foundation

/-! ## The code -/

/-- What `copy_rtp_payload` uses of `uvgrtp::frame::rtp_frame`; `payload_len` is the
length of the payload. -/
structure RtpFrame where
  payload : List UInt8
  deriving DecidableEq, Repr, Inhabited

/-- `init_mmap()`. -/
def initMmap : V3cFileMap where
  adUnits := [{ header := .ofVuh (.ad {}) }]
  ovdUnits := [{ header := .ofVuh (.ovd {}) }]
  gvdUnits := [{ header := .ofVuh (.gvd {}) }]
  avdUnits := [{ header := .ofVuh (.avd {}) }]

/-- The unit `info` opened behind a full one; its parameter set id is the number of
units so far, as a `uint8_t`. -/
def openedUnit (back : V3cUnitInfo) (size : Nat) : V3cUnitInfo :=
  let vuhUnitType := back.header.vuhUnitType
  let vuhV3cParameterSetId := UInt8.ofNat size
  { header :=
      match V3cUnitType.ofCode vuhUnitType with
      | some .ad => ⟨vuhUnitType, .ad { vuhV3cParameterSetId }⟩
      | some .ovd => ⟨vuhUnitType, .ovd { vuhV3cParameterSetId }⟩
      | some .gvd => ⟨vuhUnitType, .gvd { vuhV3cParameterSetId }⟩
      | some .avd => ⟨vuhUnitType, .avd { vuhV3cParameterSetId }⟩
      | _ => ⟨vuhUnitType, .ad {}⟩ }

/-- Update the last unit. -/
def modifyBack (f : V3cUnitInfo → V3cUnitInfo) (units : List V3cUnitInfo) :
    List V3cUnitInfo :=
  match units.getLast? with
  | some back => units.dropLast ++ [f back]
  | none => []

/-- Append a payload to a unit. -/
def V3cUnitInfo.store (unit : V3cUnitInfo) (frame : RtpFrame) : V3cUnitInfo :=
  { unit with
    nalInfos := unit.nalInfos ++
      [{ location := unit.ptr, size := frame.payload.length, buf := some frame.payload }]
    ptr := unit.ptr + frame.payload.length }

/-- First test of `copy_rtp_payload`: a full last unit is followed by a new one. -/
def openIfFull (units : List V3cUnitInfo) (maxSize : Nat) :
    Except MemFault (List V3cUnitInfo) := do
  let back ← lastElement units
  pure (if back.nalInfos.length = maxSize then units ++ [openedUnit back units.length]
    else units)

/-- Second test: the payload is copied into the last unit. -/
def storeIfRoom (units : List V3cUnitInfo) (maxSize : Nat) (frame : RtpFrame) :
    Except MemFault (List V3cUnitInfo) := do
  let back ← lastElement units
  pure (if back.nalInfos.length ≤ maxSize then modifyBack (·.store frame) units
    else units)

/-- Third test: a full last unit is ready. -/
def markIfFull (units : List V3cUnitInfo) (maxSize : Nat) :
    Except MemFault (List V3cUnitInfo) := do
  let back ← lastElement units
  pure (if back.nalInfos.length = maxSize then modifyBack ({ · with ready := true }) units
    else units)

/-- `copy_rtp_payload(units, max_size, frame)`. -/
def copyRtpPayload (units : List V3cUnitInfo) (maxSize : Nat) (frame : RtpFrame) :
    Except MemFault (List V3cUnitInfo) := do
  let units ← openIfFull units maxSize
  let units ← storeIfRoom units maxSize frame
  markIfFull units maxSize

section Phases

variable (us : List V3cUnitInfo) (u : V3cUnitInfo) (maxSize : Nat) (frame : RtpFrame)

@[simp] theorem modifyBack_concat (f : V3cUnitInfo → V3cUnitInfo) :
    modifyBack f (us ++ [u]) = us ++ [f u] := by
  simp [modifyBack]

theorem openIfFull_concat :
    openIfFull (us ++ [u]) maxSize =
      .ok (if u.nalInfos.length = maxSize then us ++ [u] ++ [openedUnit u (us.length + 1)]
        else us ++ [u]) := by
  simp [openIfFull, pure, Except.pure]

theorem storeIfRoom_concat :
    storeIfRoom (us ++ [u]) maxSize frame =
      .ok (us ++ [if u.nalInfos.length ≤ maxSize then u.store frame else u]) := by
  rw [storeIfRoom, lastElement_concat, ok_bind]
  split_ifs <;> simp [pure, Except.pure]

theorem markIfFull_concat :
    markIfFull (us ++ [u]) maxSize =
      .ok (us ++ [if u.nalInfos.length = maxSize then { u with ready := true } else u]) := by
  rw [markIfFull, lastElement_concat, ok_bind]
  split_ifs <;> simp [pure, Except.pure]

/-- What the second and the third test make of the last unit. -/
def V3cUnitInfo.fill (u : V3cUnitInfo) (maxSize : Nat) (frame : RtpFrame) : V3cUnitInfo :=
  let u := if u.nalInfos.length ≤ maxSize then u.store frame else u
  if u.nalInfos.length = maxSize then { u with ready := true } else u

/-- The call on a list with a last unit: the payload goes to that unit, or to one that is
opened behind it. -/
theorem copyRtpPayload_concat :
    copyRtpPayload (us ++ [u]) maxSize frame =
      .ok (if u.nalInfos.length = maxSize
        then us ++ [u] ++ [(openedUnit u (us.length + 1)).fill maxSize frame]
        else us ++ [u.fill maxSize frame]) := by
  rw [copyRtpPayload, openIfFull_concat, ok_bind]
  split_ifs with h
  · rw [storeIfRoom_concat, ok_bind, markIfFull_concat]
    rfl
  · rw [storeIfRoom_concat, ok_bind, markIfFull_concat]
    rfl

theorem V3cUnitInfo.fill_of_room {u : V3cUnitInfo} {maxSize : Nat}
    (hroom : u.nalInfos.length < maxSize) (frame : RtpFrame) :
    u.fill maxSize frame = if (u.store frame).nalInfos.length = maxSize
      then { u.store frame with ready := true } else u.store frame := by
  simp only [fill, if_pos (Nat.le_of_lt hroom)]

/-- A payload leaves the header of a unit as it is. -/
@[simp] theorem V3cUnitInfo.fill_header : (u.fill maxSize frame).header = u.header := by
  unfold fill
  dsimp only
  split_ifs <;> rfl

/-- What storing a payload and marking a unit as ready preserve of it. -/
theorem V3cUnitInfo.fill_preserves {Q : V3cUnitInfo → Prop} {u : V3cUnitInfo}
    (hstore : ∀ u frame, Q u → Q (u.store frame))
    (hready : ∀ u, Q u → Q { u with ready := true }) (hu : Q u) (maxSize : Nat)
    (frame : RtpFrame) : Q (u.fill maxSize frame) := by
  have hstored : Q (if u.nalInfos.length ≤ maxSize then u.store frame else u) := by
    split_ifs
    · exact hstore u frame hu
    · exact hu
  unfold fill
  dsimp only
  split_ifs at hstored ⊢
  · exact hready _ hstored
  · exact hstored
  · exact hready _ hstored
  · exact hstored

end Phases

/-! ## What holds of every unit -/

/-- A unit as the receiving side builds it. -/
structure V3cUnitInfo.Packed (u : V3cUnitInfo) : Prop where
  ptr_eq : u.ptr = (u.nalInfos.map (·.size)).sum
  location_eq : ∀ i n, u.nalInfos[i]? = some n →
    n.location = ((u.nalInfos.take i).map (·.size)).sum
  live : u.Live

namespace V3cUnitInfo.Packed

/-- A unit without NAL units. -/
theorem of_nil {u : V3cUnitInfo} (hnals : u.nalInfos = []) (hptr : u.ptr = 0) :
    u.Packed where
  ptr_eq := by simp [hnals, hptr]
  location_eq := by simp [hnals]
  live := by simp [V3cUnitInfo.Live, hnals]

theorem opened (back : V3cUnitInfo) (size : Nat) : (openedUnit back size).Packed :=
  of_nil rfl rfl

theorem store {u : V3cUnitInfo} (h : u.Packed) (frame : RtpFrame) :
    (u.store frame).Packed where
  ptr_eq := by simp [V3cUnitInfo.store, h.ptr_eq]
  location_eq := by
    intro i n hn
    simp only [V3cUnitInfo.store] at hn ⊢
    by_cases hi : i < u.nalInfos.length
    · rw [List.getElem?_append_left hi] at hn
      rw [List.take_append_of_le_length (Nat.le_of_lt hi)]
      exact h.location_eq i n hn
    · have hi' : i = u.nalInfos.length := by
        have := (List.getElem?_eq_some_iff.mp hn).1
        simp only [List.length_append, List.length_singleton] at this
        omega
      subst hi'
      simp only [List.getElem?_concat_length, Option.some.injEq] at hn
      rw [← hn, List.take_left' rfl]
      exact h.ptr_eq
  live := by
    intro n hn
    rcases List.mem_append.mp hn with hn | hn
    · exact h.live n hn
    · rw [List.mem_singleton.mp hn]
      exact ⟨frame.payload, rfl, rfl⟩

theorem setReady {u : V3cUnitInfo} (h : u.Packed) : { u with ready := true }.Packed :=
  ⟨h.ptr_eq, h.location_eq, h.live⟩

end V3cUnitInfo.Packed

/-! ## What holds of a stream -/

/-- The units of a stream of type `t` after the payloads of `frames` were collected in
units of `maxSize`. -/
structure Collected (maxSize : Nat) (t : V3cUnitType) (frames : List RtpFrame)
    (units : List V3cUnitInfo) : Prop where
  full : ∀ u ∈ units.dropLast, u.nalInfos.length = maxSize ∧ u.ready = true
  last : ∃ u, units.getLast? = some u ∧ u.nalInfos.length ≤ maxSize ∧
    (u.ready = true ↔ u.nalInfos.length = maxSize)
  packed : ∀ u ∈ units, u.Packed
  type_eq : ∀ u ∈ units, u.header.vuhUnitType = t.code
  payloads_eq : (units.flatMap (·.nalInfos)).map (·.buf) = frames.map (some ·.payload)

/-- `Collected` by the units before the last and the last. -/
theorem collected_concat_iff {maxSize : Nat} {t : V3cUnitType} {frames : List RtpFrame}
    {us : List V3cUnitInfo} {u : V3cUnitInfo} :
    Collected maxSize t frames (us ++ [u]) ↔
      (∀ v ∈ us, (v.nalInfos.length = maxSize ∧ v.ready = true) ∧ v.Packed ∧
        v.header.vuhUnitType = t.code) ∧
      (u.nalInfos.length ≤ maxSize ∧ (u.ready = true ↔ u.nalInfos.length = maxSize)) ∧
      (u.Packed ∧ u.header.vuhUnitType = t.code) ∧
      ((us ++ [u]).flatMap (·.nalInfos)).map (·.buf) = frames.map (some ·.payload) := by
  constructor
  · rintro ⟨hfull, ⟨v, hv, hle, hready⟩, hpacked, htype, hpay⟩
    rw [List.getLast?_concat] at hv
    cases hv
    rw [List.dropLast_concat] at hfull
    have hu : u ∈ us ++ [u] := List.mem_append_right _ (List.mem_singleton_self u)
    exact ⟨fun v hv => ⟨hfull v hv, hpacked v (List.mem_append_left _ hv),
      htype v (List.mem_append_left _ hv)⟩, ⟨hle, hready⟩,
      ⟨hpacked u hu, htype u hu⟩, hpay⟩
  · rintro ⟨hold, ⟨hle, hready⟩, ⟨hpacked, htype⟩, hpay⟩
    refine ⟨?_, ⟨u, List.getLast?_concat, hle, hready⟩, ?_, ?_, hpay⟩
    · rw [List.dropLast_concat]
      exact fun v hv => (hold v hv).1
    · exact List.forall_mem_append.mpr
        ⟨fun v hv => (hold v hv).2.1, List.forall_mem_singleton.mpr hpacked⟩
    · exact List.forall_mem_append.mpr
        ⟨fun v hv => (hold v hv).2.2, List.forall_mem_singleton.mpr htype⟩

/-- The opened unit carries the type of the one before it. -/
theorem openedUnit_vuhUnitType (back : V3cUnitInfo) (size : Nat) :
    (openedUnit back size).header.vuhUnitType = back.header.vuhUnitType := by
  unfold openedUnit
  dsimp only
  split <;> rfl

section Steps

variable {maxSize : Nat} {t : V3cUnitType} {frames : List RtpFrame}
  {us : List V3cUnitInfo} {u : V3cUnitInfo}

/-- Behind a full unit an empty one is opened. -/
theorem Collected.open (h : Collected maxSize t frames (us ++ [u])) (hmax : 1 ≤ maxSize)
    (hfull : u.nalInfos.length = maxSize) :
    Collected maxSize t frames (us ++ [u] ++ [openedUnit u (us.length + 1)]) := by
  obtain ⟨hold, ⟨_, hready⟩, ⟨hpacked, htype⟩, hpay⟩ := collected_concat_iff.mp h
  have hnals : (openedUnit u (us.length + 1)).nalInfos = [] := rfl
  have hnotready : (openedUnit u (us.length + 1)).ready = false := rfl
  rw [collected_concat_iff]
  refine ⟨?_, ?_, ⟨.opened u _, ?_⟩, ?_⟩
  · exact List.forall_mem_append.mpr ⟨hold, List.forall_mem_singleton.mpr
      ⟨⟨hfull, hready.mpr hfull⟩, hpacked, htype⟩⟩
  · simp only [hnals, hnotready, List.length_nil]
    exact ⟨Nat.zero_le _, by simp; omega⟩
  · rw [openedUnit_vuhUnitType, htype]
  · rw [List.flatMap_append, List.flatMap_singleton, hnals, List.append_nil, hpay]

/-- A payload stored in a last unit with room, which is ready if that fills it. -/
theorem Collected.store (h : Collected maxSize t frames (us ++ [u]))
    (hroom : u.nalInfos.length < maxSize) (frame : RtpFrame) :
    Collected maxSize t (frames ++ [frame])
      (us ++ [u.fill maxSize frame]) := by
  obtain ⟨hold, ⟨_, hready⟩, ⟨hpacked, htype⟩, hpay⟩ := collected_concat_iff.mp h
  have hlen : (u.store frame).nalInfos.length = u.nalInfos.length + 1 := by
    simp [V3cUnitInfo.store]
  have hnals : ((us ++ [u.store frame]).flatMap (·.nalInfos)).map (·.buf)
      = (frames ++ [frame]).map (some ·.payload) := by
    rw [List.map_append, ← hpay]
    simp [V3cUnitInfo.store]
  have hnotready : (u.store frame).ready ≠ true := fun hr => by
    have := hready.mp hr
    omega
  rw [u.fill_of_room hroom, collected_concat_iff]
  split_ifs with hmax
  · refine ⟨hold, ⟨Nat.le_of_eq hmax, by simp [hmax]⟩,
      ⟨(hpacked.store frame).setReady, htype⟩, ?_⟩
    rw [← hnals]
    simp
  · exact ⟨hold, ⟨by omega, by simp [hnotready, hmax]⟩,
      ⟨hpacked.store frame, htype⟩, hnals⟩

/-- One call collects one more payload. -/
theorem Collected.copyRtpPayload (h : Collected maxSize t frames us) (hmax : 1 ≤ maxSize)
    (frame : RtpFrame) :
    ∃ us', copyRtpPayload us maxSize frame = .ok us' ∧
      Collected maxSize t (frames ++ [frame]) us' := by
  obtain ⟨u, hlast, hle, _⟩ := h.last
  obtain ⟨us, rfl⟩ := List.getLast?_eq_some_iff.mp hlast
  refine ⟨_, copyRtpPayload_concat us u maxSize frame, ?_⟩
  split_ifs with hfull
  · have hroom : (openedUnit u (us.length + 1)).nalInfos.length < maxSize := hmax
    exact (h.open hmax hfull).store hroom frame
  · have hroom : u.nalInfos.length < maxSize := by omega
    exact h.store hroom frame

end Steps

/-- The list `init_mmap` fills for a stream. -/
theorem collected_initMmap {t : V3cUnitType} (ht : t.hasStream = true) {maxSize : Nat}
    (hmax : 1 ≤ maxSize) : Collected maxSize t [] (initMmap.units t) := by
  obtain ⟨v, hv, hunits⟩ : ∃ v : Vuh, v.unitType = t ∧
      initMmap.units t = [] ++ [{ header := .ofVuh v }] := by
    cases t with
    | ad => exact ⟨.ad {}, rfl, rfl⟩
    | ovd => exact ⟨.ovd {}, rfl, rfl⟩
    | gvd => exact ⟨.gvd {}, rfl, rfl⟩
    | avd => exact ⟨.avd {}, rfl, rfl⟩
    | vps | pvd | cad => cases ht
  rw [hunits, collected_concat_iff]
  refine ⟨by simp, ⟨Nat.zero_le _, ?_⟩, ⟨.of_nil rfl rfl, ?_⟩, rfl⟩
  · simp only [List.length_nil, Bool.false_eq_true, false_iff]
    omega
  · rw [V3cUnitHeader.ofVuh_vuhUnitType, hv]

/-- Feeding any sequence of frames to `copy_rtp_payload`, on any of the four lists
`init_mmap` fills and with any positive `max_size`, never faults, and leaves the list
as `Collected` describes it. -/
theorem foldlM_copyRtpPayload {t : V3cUnitType} (ht : t.hasStream = true) {maxSize : Nat}
    (hmax : 1 ≤ maxSize) (frames : List RtpFrame) :
    ∃ units, frames.foldlM (fun us f => copyRtpPayload us maxSize f) (initMmap.units t)
        = .ok units ∧
      Collected maxSize t frames units :=
  foldlM_invariant (collected_initMmap ht hmax)
    (fun _ _ frame h => h.copyRtpPayload hmax frame) frames

/-- Three frames in units of two. -/
theorem foldlM_copyRtpPayload_three :
    V3cUnitType.hasStream .gvd = true ∧ 1 ≤ 2 ∧
      ∃ units, [⟨[1]⟩, ⟨[2, 3]⟩, ⟨[]⟩].foldlM (fun us f => copyRtpPayload us 2 f)
          (initMmap.units .gvd) = .ok units ∧
        Collected 2 .gvd [⟨[1]⟩, ⟨[2, 3]⟩, ⟨[]⟩] units :=
  ⟨rfl, by decide, foldlM_copyRtpPayload rfl (by decide) _⟩

/-! ## Reachable states -/

/-- The states of the receiving side: payloads arrive on the four streams in any order
and with any `max_size`, and VPS units with one NAL unit are appended as they come from
elsewhere. -/
inductive Reachable : V3cFileMap → Prop where
  | init : Reachable initMmap
  | copy {m : V3cFileMap} {t : V3cUnitType} {maxSize : Nat} {frame : RtpFrame}
      {units : List V3cUnitInfo} :
      Reachable m → t.hasStream = true →
      copyRtpPayload (m.units t) maxSize frame = .ok units →
      Reachable (m.setUnits units t)
  | vps {m : V3cFileMap} {unit : V3cUnitInfo} {n : NalInfo} :
      Reachable m → unit.nalInfos = [n] → n.Live →
      Reachable (m.setUnits (m.vpsUnits ++ [unit]) .vps)

/-- What a call preserves of every unit, whatever `max_size` is. -/
theorem copyRtpPayload_forall {Q : V3cUnitInfo → Prop}
    (hopen : ∀ u size, Q u → Q (openedUnit u size))
    (hstore : ∀ u frame, Q u → Q (u.store frame))
    (hready : ∀ u, Q u → Q { u with ready := true })
    {us us' : List V3cUnitInfo} {maxSize : Nat} {frame : RtpFrame}
    (h : copyRtpPayload us maxSize frame = .ok us') (hus : ∀ u ∈ us, Q u) :
    ∀ u ∈ us', Q u := by
  obtain rfl | ⟨us, u, rfl⟩ := List.eq_nil_or_concat' us
  · cases h
  · rw [copyRtpPayload_concat] at h
    obtain ⟨hold, hu⟩ := List.forall_mem_append.mp hus
    have hu := List.forall_mem_singleton.mp hu
    have hfill : ∀ v, Q v → Q (v.fill maxSize frame) := fun v hv =>
      V3cUnitInfo.fill_preserves hstore hready hv maxSize frame
    split_ifs at h with hfull <;> cases h
    · exact List.forall_mem_append.mpr ⟨hus, List.forall_mem_singleton.mpr
        (hfill _ (hopen u _ hu))⟩
    · exact List.forall_mem_append.mpr ⟨hold, List.forall_mem_singleton.mpr (hfill u hu)⟩

/-- In a reachable state every unit of a stream is packed and has the type of its
stream. -/
theorem Reachable.packed {m : V3cFileMap} (h : Reachable m) {t : V3cUnitType}
    (ht : t.hasStream = true) :
    ∀ u ∈ m.units t, u.Packed ∧ u.header.vuhUnitType = t.code := by
  induction h with
  | init =>
    obtain ⟨_, _, hpacked, htype, _⟩ := collected_initMmap ht (Nat.le_refl 1)
    exact fun u hu => ⟨hpacked u hu, htype u hu⟩
  | @copy m t' maxSize frame units _ _ hcopy ih =>
    intro u hu
    rw [V3cFileMap.units_setUnits] at hu
    split_ifs at hu with heq
    · subst heq
      refine copyRtpPayload_forall ?_ ?_ ?_ hcopy ih u hu
      · rintro u size ⟨_, hu⟩
        exact ⟨.opened u size, by rw [openedUnit_vuhUnitType, hu]⟩
      · rintro u frame ⟨hp, hu⟩
        exact ⟨hp.store frame, hu⟩
      · rintro u ⟨hp, hu⟩
        exact ⟨hp.setReady, hu⟩
    · exact ih u hu
  | vps _ _ _ ih =>
    intro u hu
    rw [V3cFileMap.units_setUnits, if_neg (by rintro rfl; cases ht)] at hu
    exact ih u hu

/-- In a reachable state every VPS unit has one NAL unit, and that is live. -/
theorem Reachable.vps_nal {m : V3cFileMap} (h : Reachable m) :
    ∀ u ∈ m.vpsUnits, ∃ n, u.nalInfos = [n] ∧ n.Live := by
  induction h with
  | init => simp [initMmap]
  | @copy m t maxSize frame units _ ht _ ih =>
    have hvps : (m.setUnits units t).vpsUnits = m.vpsUnits := by
      have := V3cFileMap.units_setUnits m units t .vps
      rwa [if_neg (by rintro rfl; cases ht)] at this
    rwa [hvps]
  | vps _ hnals hlive ih =>
    exact List.forall_mem_append.mpr
      ⟨ih, List.forall_mem_singleton.mpr ⟨_, hnals, hlive⟩⟩

end RtpBenchmarks.V3c
