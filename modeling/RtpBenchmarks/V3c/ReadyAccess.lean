import RtpBenchmarks.V3c.Receive

set_option autoImplicit false

/-!
# V3C: what the readiness test covers

`get_gop_size` and `reconstruct_v3c_gop` ask the unit lists and the NAL unit list of the
VPS unit for their elements with `at`, and `is_gop_ready` is the test in front of them.
The test compares sizes with `index + 1`, which wraps around at the last 64-bit index, and
it does not look into the VPS unit.
-/

namespace RtpBenchmarks.V3c

open RtpBenchmarks.Foundation

/-! ## The test -/

theorem notReady_ok (units : List V3cUnitInfo) {index : Nat} (hindex : index + 1 < 2 ^ 64) :
    ∃ b, notReady units index = .ok b := by
  unfold notReady
  rw [Nat.mod_eq_of_lt hindex]
  split_ifs with hshort
  · exact ⟨true, rfl⟩
  · have hlen : index < units.length := by omega
    rw [elementAt_eq_ok_iff.mpr (List.getElem?_eq_getElem hlen)]
    exact ⟨_, rfl⟩

/-- A test that returns, before a computation that does. -/
theorem guard_ok {test rest : Except MemFault Bool} (htest : ∃ b, test = .ok b)
    (hrest : ∃ b, rest = .ok b) :
    ∃ b, (test >>= fun b => if b then pure false else rest) = .ok b := by
  obtain ⟨b, rfl⟩ := htest
  cases b with
  | false => exact hrest
  | true => exact ⟨false, rfl⟩

/-- Below the last index `is_gop_ready` returns. -/
theorem isGopReady_ok (mmap : V3cFileMap) {index : Nat} (hindex : index + 1 < 2 ^ 64) :
    ∃ b, isGopReady index mmap = .ok b := by
  unfold isGopReady
  split_ifs
  · exact ⟨false, rfl⟩
  · exact guard_ok (notReady_ok _ hindex) (guard_ok (notReady_ok _ hindex)
      (guard_ok (notReady_ok _ hindex) (guard_ok (notReady_ok _ hindex) ⟨true, rfl⟩)))

/-- At the last index the size tests compare with zero, and the first list is asked for an
element it cannot have. -/
theorem isGopReady_last {mmap : V3cFileMap} (had : mmap.adUnits.length < 2 ^ 64) :
    isGopReady (2 ^ 64 - 1) mmap = .error .outOfRange := by
  have hwrap : (2 ^ 64 - 1 + 1) % 2 ^ 64 = 0 := by decide
  have hlen : mmap.adUnits.length ≤ 2 ^ 64 - 1 := by omega
  unfold isGopReady notReady
  rw [hwrap, if_neg (Nat.not_lt_zero _), if_neg (Nat.not_lt_zero _), elementAt_of_le hlen]
  rfl

/-! ## The writers of units -/

theorem writeNals_avoids (q : Nat) (ns : List NalInfo) (buf : List UInt8) (ptr : Nat) :
    Avoids .outOfRange (writeNals q ns buf ptr) := by
  induction ns generalizing buf ptr with
  | nil => exact avoids_ok _ _
  | cons n ns ih =>
    rw [writeNals]
    refine (storeBytes_avoids _ _ _).bind fun buf _ => ?_
    refine (loadThrough_avoids _ _).bind fun nal _ => ?_
    refine (storeBytes_avoids _ _ _).bind fun buf _ => ?_
    exact (ih _ _).bind fun _ _ => avoids_ok _ _

theorem writeNalPrecision_avoids (v3cType : UInt8) (q : Nat) (buf : List UInt8) (ptr : Nat) :
    Avoids .outOfRange (writeNalPrecision v3cType q buf ptr) := by
  unfold writeNalPrecision
  split_ifs
  · exact (storeBytes_avoids _ _ _).bind fun _ _ => avoids_ok _ _
  · exact avoids_ok _ _

/-- `create_v3c_unit` asks no vector for an element. -/
theorem createV3cUnit_avoids (u : V3cUnitInfo) (buf : List UInt8) (ptr p q : Nat) :
    Avoids .outOfRange (createV3cUnit u buf ptr p q) := by
  unfold createV3cUnit
  refine (storeBytes_avoids _ _ _).bind fun buf _ => ?_
  refine (storeBytes_avoids _ _ _).bind fun buf _ => ?_
  refine (writeNalPrecision_avoids _ _ _ _).bind fun _ _ => ?_
  exact (writeNals_avoids _ _ _ _).bind fun _ _ => avoids_ok _ _

theorem writeStreamHeader_avoids (hdrByte : Bool) (buf : List UInt8) (ptr : Nat) :
    Avoids .outOfRange (writeStreamHeader hdrByte buf ptr) := by
  unfold writeStreamHeader
  split_ifs
  · exact (storeBytes_avoids _ _ _).bind fun _ _ => avoids_ok _ _
  · exact avoids_ok _ _

/-- Every stream has a unit at `index`. -/
def V3cFileMap.StreamsAt (m : V3cFileMap) (index : Nat) : Prop :=
  ∀ t, t.hasStream = true → index < (m.units t).length

/-- A stream unit that exists is asked for in range, and the units there are stay. -/
theorem createUnitOf_avoids {m : V3cFileMap} {index : Nat} (hstreams : m.StreamsAt index)
    {t : V3cUnitType} (ht : t.hasStream = true) (q : Nat) (buf : List UInt8) (ptr : Nat) :
    Avoids .outOfRange (createUnitOf t q buf ptr m index) ∧
      ∀ r, createUnitOf t q buf ptr m index = .ok r → r.2.2.StreamsAt index := by
  have hunit := elementAt_eq_ok_iff.mpr (List.getElem?_eq_getElem (hstreams t ht))
  unfold createUnitOf
  rw [hunit, ok_bind]
  refine ⟨(createV3cUnit_avoids _ _ _ _ _).bind fun _ _ => avoids_ok _ _, fun r hr => ?_⟩
  obtain ⟨⟨u, buf', ptr'⟩, _, hr⟩ := bind_eq_ok_iff.mp hr
  cases hr
  intro t' ht'
  rw [V3cFileMap.units_setUnits]
  split_ifs with heq
  · rw [List.length_set]
    exact hstreams t ht
  · exact hstreams t' ht'

/-! ## The functions behind the test -/

section Consumers

variable {m : V3cFileMap} {index : Nat}

/-- The VPS unit has a NAL unit. -/
def V3cFileMap.VpsNalAt (m : V3cFileMap) (index : Nat) : Prop :=
  ∃ u, m.vpsUnits[index]? = some u ∧ u.nalInfos ≠ []

theorem V3cFileMap.StreamsAt.elements (h : m.StreamsAt index) : ∃ ad ovd gvd avd,
    elementAt m.adUnits index = .ok ad ∧ elementAt m.ovdUnits index = .ok ovd ∧
      elementAt m.gvdUnits index = .ok gvd ∧ elementAt m.avdUnits index = .ok avd := by
  have hat : ∀ t, t.hasStream = true → ∃ u, elementAt (m.units t) index = .ok u :=
    fun t ht => ⟨_, elementAt_eq_ok_iff.mpr (List.getElem?_eq_getElem (h t ht))⟩
  obtain ⟨ad, had⟩ := hat .ad rfl
  obtain ⟨ovd, hovd⟩ := hat .ovd rfl
  obtain ⟨gvd, hgvd⟩ := hat .gvd rfl
  obtain ⟨avd, havd⟩ := hat .avd rfl
  exact ⟨ad, ovd, gvd, avd, had, hovd, hgvd, havd⟩

theorem V3cFileMap.VpsNalAt.elements (h : m.VpsNalAt index) : ∃ vps first back,
    elementAt m.vpsUnits index = .ok vps ∧ elementAt vps.nalInfos 0 = .ok first ∧
      lastElement vps.nalInfos = .ok back := by
  obtain ⟨u, hu, hnals⟩ := h
  have hfirst := List.getElem?_eq_getElem (List.length_pos_of_ne_nil hnals)
  obtain hnil | ⟨front, back, hconcat⟩ := List.eq_nil_or_concat' u.nalInfos
  · exact absurd hnil hnals
  · exact ⟨u, _, back, elementAt_eq_ok_iff.mpr hu, elementAt_eq_ok_iff.mpr hfirst,
      by rw [hconcat, lastElement_concat]⟩

/-- With five units and a NAL unit in the first of them `get_gop_size` returns. -/
theorem getGopSize_ok (hstreams : m.StreamsAt index) (hvps : m.VpsNalAt index)
    (hdrByte : Bool) : ∃ size, getGopSize hdrByte index m = .ok size := by
  obtain ⟨ad, ovd, gvd, avd, had, hovd, hgvd, havd⟩ := hstreams.elements
  obtain ⟨vps, first, -, hu, hfirst, -⟩ := hvps.elements
  simp only [getGopSize, hu, hfirst, had, hovd, hgvd, havd, ok_bind]
  exact ⟨_, rfl⟩

/-- With five units and a NAL unit in the first of them `reconstruct_v3c_gop` asks for
elements in range only. -/
theorem reconstructV3cGop_avoids (hstreams : m.StreamsAt index) (hvps : m.VpsNalAt index)
    (hdrByte : Bool) (buf : List UInt8) (ptr : Nat) :
    Avoids .outOfRange (reconstructV3cGop hdrByte buf ptr m index) := by
  obtain ⟨ad, ovd, gvd, avd, had, hovd, hgvd, havd⟩ := hstreams.elements
  obtain ⟨vps, first, back, hu, hfirst, hback⟩ := hvps.elements
  unfold reconstructV3cGop
  simp only [hu, hfirst, had, hovd, hgvd, havd, hback, ok_bind]
  refine (writeStreamHeader_avoids _ _ _).bind fun _ _ => ?_
  refine (storeBytes_avoids _ _ _).bind fun _ _ => ?_
  refine (loadThrough_avoids _ _).bind fun _ _ => ?_
  refine (storeBytes_avoids _ _ _).bind fun buf₀ _ => ?_
  -- each of the four units leaves the lists as long as they are
  obtain ⟨havoids, hkept⟩ := createUnitOf_avoids hstreams (t := .ad) rfl
    ATLAS_NAL_SIZE_PRECISION buf₀ _
  refine havoids.bind fun r₁ h₁ => ?_
  obtain ⟨havoids, hkept⟩ := createUnitOf_avoids (hkept r₁ h₁) (t := .ovd) rfl
    VIDEO_NAL_SIZE_PRECISION r₁.1 r₁.2.1
  refine havoids.bind fun r₂ h₂ => ?_
  obtain ⟨havoids, hkept⟩ := createUnitOf_avoids (hkept r₂ h₂) (t := .gvd) rfl
    VIDEO_NAL_SIZE_PRECISION r₂.1 r₂.2.1
  refine havoids.bind fun r₃ h₃ => ?_
  obtain ⟨havoids, -⟩ := createUnitOf_avoids (hkept r₃ h₃) (t := .avd) rfl
    VIDEO_NAL_SIZE_PRECISION r₃.1 r₃.2.1
  exact havoids.bind fun _ _ => avoids_ok _ _

/-- A VPS unit without NAL units makes `get_gop_size` throw. -/
theorem getGopSize_of_nil {u : V3cUnitInfo} (hu : m.vpsUnits[index]? = some u)
    (hnals : u.nalInfos = []) (hdrByte : Bool) :
    getGopSize hdrByte index m = .error .outOfRange := by
  have hnal : elementAt u.nalInfos 0 = .error .outOfRange := elementAt_of_le (by simp [hnals])
  rw [getGopSize, elementAt_eq_ok_iff.mpr hu, ok_bind, hnal]
  rfl

end Consumers

/-! ## The test and the functions behind it -/

/-- `is_gop_ready` returns, and where it says `true` the two functions behind it ask for
elements in range only. -/
def ReadyCovers (index : Nat) (mmap : V3cFileMap) : Prop :=
  (∃ b, isGopReady index mmap = .ok b) ∧
    (isGopReady index mmap = .ok true → ∀ hdrByte,
      Avoids .outOfRange (getGopSize hdrByte index mmap) ∧
        ∀ buf ptr, Avoids .outOfRange (reconstructV3cGop hdrByte buf ptr mmap index))

/-- Where the four streams have a ready unit, a VPS unit has a NAL unit. -/
def V3cFileMap.VpsNalWhenReady (m : V3cFileMap) (index : Nat) : Prop :=
  (∀ t, t.hasStream = true → ∃ unit, (m.units t)[index]? = some unit ∧ unit.ready = true) →
    ∀ u, m.vpsUnits[index]? = some u → u.nalInfos ≠ []

/-- For lists as long as a vector can be and every 64-bit index: `is_gop_ready` covers the
accesses of both functions except at the last index, and where it finds a VPS unit without
NAL units. -/
theorem isGopReady_covers {m : V3cFileMap} (had : m.adUnits.length < 2 ^ 64) {index : Nat}
    (hindex : index < 2 ^ 64) :
    ReadyCovers index m ↔ index ≠ 2 ^ 64 - 1 ∧ m.VpsNalWhenReady index := by
  constructor
  · rintro ⟨⟨b, hreturns⟩, hcovers⟩
    have hlast : index ≠ 2 ^ 64 - 1 := by
      rintro rfl
      rw [isGopReady_last had] at hreturns
      cases hreturns
    refine ⟨hlast, fun hstreams u hu hnals => ?_⟩
    have hmod : (index + 1) % 2 ^ 64 = index + 1 := Nat.mod_eq_of_lt (by omega)
    have hvps := (List.getElem?_eq_some_iff.mp hu).1
    have hready := isGopReady_eq_true_iff.mpr ⟨by omega, hstreams⟩
    exact (hcovers hready true).1 (getGopSize_of_nil hu hnals true)
  · rintro ⟨hlast, hnals⟩
    have hbelow : index + 1 < 2 ^ 64 := by omega
    refine ⟨isGopReady_ok m hbelow, fun hready hdrByte => ?_⟩
    obtain ⟨hvps, hunits⟩ := isGopReady_eq_true hbelow hready
    have hstreams : m.StreamsAt index := fun t ht => by
      obtain ⟨unit, hunit, -⟩ := hunits t ht
      exact (List.getElem?_eq_some_iff.mp hunit).1
    have hu := List.getElem?_eq_getElem hvps
    have hvpsNal : m.VpsNalAt index := ⟨_, hu, hnals hunits _ hu⟩
    obtain ⟨size, hsize⟩ := getGopSize_ok hstreams hvpsNal hdrByte
    exact ⟨hsize ▸ avoids_ok _ size, fun buf ptr =>
      reconstructV3cGop_avoids hstreams hvpsNal hdrByte buf ptr⟩

/-- The map the receiving side starts with, at index 0. -/
theorem isGopReady_covers_init : initMmap.adUnits.length < 2 ^ 64 ∧ (0 : Nat) < 2 ^ 64 ∧
    ReadyCovers 0 initMmap := by
  have had : initMmap.adUnits.length < 2 ^ 64 := by decide
  refine ⟨had, by decide, (isGopReady_covers had (by decide)).mpr ⟨by decide, ?_⟩⟩
  intro _ u hu
  cases hu

/-- The map the receiving side starts with, at the last index. -/
theorem isGopReady_throws :
    isGopReady 18446744073709551615 initMmap = .error .outOfRange ∧
      ¬ ReadyCovers 18446744073709551615 initMmap := by
  have hthrows : isGopReady 18446744073709551615 initMmap = .error .outOfRange :=
    isGopReady_last (by decide)
  refine ⟨hthrows, fun hcovers => ?_⟩
  obtain ⟨b, hreturns⟩ := hcovers.1
  rw [hthrows] at hreturns
  cases hreturns

end RtpBenchmarks.V3c
