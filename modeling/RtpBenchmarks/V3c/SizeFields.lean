import RtpBenchmarks.V3c.Gop

set_option autoImplicit false

/-!
# V3C: the size fields of a written GoP

Every V3C unit and every NAL unit is written behind a size field of a fixed width: three
bytes for a unit, two for an atlas NAL unit, four for a video NAL unit.  The sizes are cut
to these widths without a test.  `SizesRight` says that the fields hold the true sizes and
`SizesFit` that the sizes fit their fields; for the GoPs the receiving side builds the two
are the same.
-/

namespace RtpBenchmarks.V3c

open RtpBenchmarks.Foundation

/-! ## One size field -/

/-- What a size field of `q` bytes says of a size: its low bytes. -/
theorem ofBigEndian_sizeArr (size : UInt32) {q : Nat} (hq : q ≤ 4) :
    ofBigEndian (sizeArr size q) = size.toNat % 256 ^ q := by
  rw [sizeArr_eq size hq, ofBigEndian_bigEndian]

/-- The cut to 32 bits on the way to a size field changes nothing. -/
theorem toNat_ofNat_mod_pow (n : Nat) {q : Nat} (hq : q ≤ 4) :
    (UInt32.ofNat n).toNat % 256 ^ q = n % 256 ^ q := by
  have hdvd : 256 ^ q ∣ 2 ^ 32 := pow_dvd_pow 256 hq
  rw [UInt32.toNat_ofNat', Nat.mod_mod_of_dvd n hdvd]

/-- A size field is right exactly when the size fits it. -/
theorem sizeArr_right_iff (n : Nat) {q : Nat} (hq : q ≤ 4) :
    ofBigEndian (sizeArr (UInt32.ofNat n) q) = n ↔ n < 256 ^ q := by
  rw [ofBigEndian_sizeArr _ hq, toNat_ofNat_mod_pow n hq]
  exact Nat.mod_eq_iff_lt (Nat.pos_iff_ne_zero.mp (Nat.pow_pos (by omega)))

/-! ## One unit -/

namespace V3cUnitInfo

/-- What is written of a unit behind its size field. -/
def content (u : V3cUnitInfo) (nalPrecision : Nat) : List UInt8 :=
  v3cHeader u.header ++ precisionImage u.header.vuhUnitType nalPrecision ++
    nalsImage nalPrecision u.nalInfos

/-- The number of bytes of a unit behind its size field. -/
def contentSize (u : V3cUnitInfo) (nalPrecision : Nat) : Nat :=
  4 + u.ptr + u.nalInfos.length * nalPrecision +
    if hasNalPrecisionByte u.header.vuhUnitType then 1 else 0

/-- Every size field of the unit is the length of what follows it. -/
def SizesRight (u : V3cUnitInfo) (nalPrecision : Nat) : Prop :=
  ofBigEndian (sizeArr (v3cSizeInt u nalPrecision) V3C_SIZE_PRECISION)
      = (u.content nalPrecision).length ∧
    ∀ n ∈ u.nalInfos,
      ofBigEndian (sizeArr (UInt32.ofNat n.size) nalPrecision) = n.payload.length

/-- The unit and each of its NAL units fit their size fields. -/
def SizesFit (u : V3cUnitInfo) (nalPrecision : Nat) : Prop :=
  u.contentSize nalPrecision < 256 ^ V3C_SIZE_PRECISION ∧
    ∀ n ∈ u.nalInfos, n.size < 256 ^ nalPrecision

theorem unitImage_eq_content (u : V3cUnitInfo) (p q : Nat) :
    unitImage u p q = sizeArr (v3cSizeInt u q) p ++ u.content q := by
  simp only [unitImage, content, List.append_assoc]

theorem Packed.length_content {u : V3cUnitInfo} (h : u.Packed) (q : Nat) :
    (u.content q).length = u.contentSize q := by
  have himage := length_unitImage h 0 q
  rw [unitImage_eq_content, List.length_append, length_sizeArr] at himage
  rw [contentSize]
  omega

/-- `v3c_size_int` is the length of what follows, in 32 bits. -/
theorem v3cSizeInt_eq (u : V3cUnitInfo) (q : Nat) :
    v3cSizeInt u q = UInt32.ofNat (u.contentSize q) := by
  unfold v3cSizeInt contentSize
  split_ifs
  · simp only [UInt32.ofNat_add, UInt32.ofNat_mul]
    rfl
  · simp only [UInt32.ofNat_add, UInt32.ofNat_mul, Nat.add_zero]
    rfl

/-- A packed unit has the right size fields exactly when all its sizes fit. -/
theorem Packed.sizesRight_iff {u : V3cUnitInfo} (h : u.Packed) {q : Nat} (hq : q ≤ 4) :
    u.SizesRight q ↔ u.SizesFit q := by
  have hunit : ofBigEndian (sizeArr (v3cSizeInt u q) V3C_SIZE_PRECISION)
      = (u.content q).length ↔ u.contentSize q < 256 ^ V3C_SIZE_PRECISION := by
    rw [v3cSizeInt_eq, h.length_content]
    exact sizeArr_right_iff _ (by decide)
  refine and_congr hunit (forall₂_congr fun n hn => ?_)
  rw [(h.live n hn).length_payload]
  exact sizeArr_right_iff _ hq

end V3cUnitInfo

/-! ## A GoP -/

namespace Gop

/-- The stream units in the order they are written, with their NAL size precisions. -/
def streams (g : Gop) : List (V3cUnitInfo × Nat) :=
  [(g.ad, ATLAS_NAL_SIZE_PRECISION), (g.ovd, VIDEO_NAL_SIZE_PRECISION),
    (g.gvd, VIDEO_NAL_SIZE_PRECISION), (g.avd, VIDEO_NAL_SIZE_PRECISION)]

/-- The GoP is its VPS unit and its stream units, each behind its size field. -/
theorem written_eq_streams (hdrByte : Bool) (g : Gop) :
    g.written hdrByte = streamHeader hdrByte ++
      (sizeArr (UInt32.ofNat g.vpsNal.size) V3C_SIZE_PRECISION ++ g.vpsBytes) ++
      g.streams.flatMap fun p =>
        sizeArr (v3cSizeInt p.1 p.2) V3C_SIZE_PRECISION ++ p.1.content p.2 := by
  simp only [written, streams, List.flatMap_cons, List.flatMap_nil,
    V3cUnitInfo.unitImage_eq_content, List.append_assoc, List.append_nil]

/-- Every size field of the GoP is the length of what follows it, and the VPS unit follows
its field as a whole. -/
def SizesRight (g : Gop) : Prop :=
  ofBigEndian (sizeArr (UInt32.ofNat g.vpsNal.size) V3C_SIZE_PRECISION) = g.vpsBytes.length ∧
    g.vpsBytes = g.vpsNal.payload ∧ ∀ p ∈ g.streams, p.1.SizesRight p.2

/-- Every unit of the GoP and every NAL unit fit their size fields. -/
def SizesFit (g : Gop) : Prop :=
  g.vpsNal.size < 256 ^ V3C_SIZE_PRECISION ∧ ∀ p ∈ g.streams, p.1.SizesFit p.2

end Gop

/-- In a reachable state the parts of a GoP are as the receiving side builds them. -/
theorem Reachable.packed_streams {m : V3cFileMap} (h : Reachable m) {index : Nat} {g : Gop}
    (hgop : m.HasGop index g) : ∀ p ∈ g.streams, p.1.Packed ∧ p.2 ≤ 4 := by
  have had := h.packed_at (t := .ad) rfl hgop.ad
  have hovd := h.packed_at (t := .ovd) rfl hgop.ovd
  have hgvd := h.packed_at (t := .gvd) rfl hgop.gvd
  have havd := h.packed_at (t := .avd) rfl hgop.avd
  have hatlas : ATLAS_NAL_SIZE_PRECISION ≤ 4 := by decide
  have hvideo : VIDEO_NAL_SIZE_PRECISION ≤ 4 := by decide
  simp only [Gop.streams, List.forall_mem_cons, had.1, hovd.1, hgvd.1, havd.1, hatlas, hvideo,
    and_self, List.not_mem_nil, false_implies, implies_true]

/-- The VPS unit has the right size field and is written as a whole exactly when it fits. -/
theorem vps_right_iff {g : Gop} (hlive : g.vpsNal.Live) :
    (ofBigEndian (sizeArr (UInt32.ofNat g.vpsNal.size) V3C_SIZE_PRECISION) = g.vpsBytes.length ∧
      g.vpsBytes = g.vpsNal.payload) ↔ g.vpsNal.size < 256 ^ V3C_SIZE_PRECISION := by
  have hright := sizeArr_right_iff g.vpsNal.size (q := V3C_SIZE_PRECISION) (by decide)
  constructor
  · rintro ⟨hfield, hwhole⟩
    rw [hwhole, hlive.length_payload] at hfield
    exact hright.mp hfield
  · intro hfit
    have hwhole := Gop.vpsBytes_eq hlive (Nat.lt_trans hfit (by decide))
    refine ⟨?_, hwhole⟩
    rw [hwhole, hlive.length_payload]
    exact hright.mpr hfit

/-- In a reachable state the size fields of a GoP are right exactly when its sizes fit. -/
theorem Reachable.sizesRight_iff {m : V3cFileMap} (h : Reachable m) {index : Nat} {g : Gop}
    (hgop : m.HasGop index g) : g.SizesRight ↔ g.SizesFit := by
  have hpacked := h.packed_streams hgop
  have hvps := vps_right_iff (h.live_gop hgop).vps
  have hstreams : (∀ p ∈ g.streams, p.1.SizesRight p.2) ↔ ∀ p ∈ g.streams, p.1.SizesFit p.2 :=
    forall₂_congr fun p hp => (hpacked p hp).1.sizesRight_iff (hpacked p hp).2
  rw [Gop.SizesRight, Gop.SizesFit, ← and_assoc, ← hvps, ← hstreams]

/-! ## What the writer leaves behind -/

/-- In a reachable state `create_v3c_unit`, on each stream unit of a GoP, and
`reconstruct_v3c_gop`, on the whole, write and return normally wherever the bytes have room,
and the size fields they write are right exactly when the sizes fit. -/
theorem reconstructV3cGop_sizeFields {m : V3cFileMap} (h : Reachable m) {index : Nat} {g : Gop}
    (hgop : m.HasGop index g) :
    (∀ p ∈ g.streams, ∀ (buf : List UInt8) ptr,
      ptr + (unitImage p.1 V3C_SIZE_PRECISION p.2).length ≤ buf.length →
      createV3cUnit p.1 buf ptr V3C_SIZE_PRECISION p.2 =
        .ok (p.1.released, overwrite buf ptr (unitImage p.1 V3C_SIZE_PRECISION p.2),
          ptr + (unitImage p.1 V3C_SIZE_PRECISION p.2).length) ∧
      (p.1.SizesRight p.2 ↔ p.1.SizesFit p.2)) ∧
    (∀ hdrByte (buf : List UInt8) ptr, ptr + (g.written hdrByte).length ≤ buf.length →
      reconstructV3cGop hdrByte buf ptr m index =
        .ok ⟨g.size hdrByte, overwrite buf ptr (g.written hdrByte),
          ptr + (g.written hdrByte).length, m.releaseGop index g⟩) ∧
    (g.SizesRight ↔ g.SizesFit) := by
  refine ⟨fun p hp buf ptr hcap => ?_, fun hdrByte buf ptr hcap => ?_, h.sizesRight_iff hgop⟩
  · have hpacked := h.packed_streams hgop p hp
    exact ⟨createV3cUnit_eq hpacked.1.live hcap, hpacked.1.sizesRight_iff hpacked.2⟩
  · exact reconstructV3cGop_written hgop (h.live_gop hgop) hdrByte hcap

/-- A unit whose one NAL unit has arrived. -/
def collectedOne (v : Vuh) (payload : List UInt8) : V3cUnitInfo where
  header := .ofVuh v
  nalInfos := [{ size := payload.length, buf := some payload }]
  ptr := payload.length
  ready := true

theorem copyRtpPayload_one (v : Vuh) (payload : List UInt8) :
    copyRtpPayload [{ header := .ofVuh v }] 1 ⟨payload⟩ = .ok [collectedOne v payload] := by
  simp [copyRtpPayload, openIfFull, storeIfRoom, markIfFull, lastElement, modifyBack,
    V3cUnitInfo.store, collectedOne, pure, Except.pure, Bind.bind, Except.bind]

/-- A GoP of one NAL unit in each unit, where `payload` came on the atlas stream. -/
def gopOfOne (payload : List UInt8) : Gop where
  vpsNal := { size := 2, buf := some [0, 9] }
  ad := collectedOne (.ad {}) payload
  ovd := collectedOne (.ovd {}) [1]
  gvd := collectedOne (.gvd {}) [2]
  avd := collectedOne (.avd {}) [3]

/-- The receiving side has this GoP, ready, once its five payloads have arrived. -/
theorem exists_gopOfOne (payload : List UInt8) :
    ∃ m, Reachable m ∧ isGopReady 0 m = .ok true ∧ m.HasGop 0 (gopOfOne payload) := by
  have had := copyRtpPayload_one (.ad {}) payload
  have hovd := copyRtpPayload_one (.ovd {}) [1]
  have hgvd := copyRtpPayload_one (.gvd {}) [2]
  have havd := copyRtpPayload_one (.avd {}) [3]
  have hlive : (gopOfOne payload).vpsNal.Live := ⟨[0, 9], rfl, rfl⟩
  have hinit := Reachable.copy (t := .ad) .init rfl had
  have hreach := Reachable.vps (Reachable.copy (t := .avd) (Reachable.copy (t := .gvd)
    (Reachable.copy (t := .ovd) hinit rfl hovd) rfl hgvd) rfl havd)
    (rfl : V3cUnitInfo.nalInfos { header := {}, nalInfos := [_] } = [_]) hlive
  exact ⟨_, hreach, rfl, ⟨⟨_, rfl, rfl⟩, rfl, rfl, rfl, rfl⟩⟩

/-- Three bytes on the atlas stream fit. -/
theorem reconstructV3cGop_sizeFields_small : ∃ m, Reachable m ∧ isGopReady 0 m = .ok true ∧
    m.HasGop 0 (gopOfOne [7, 8, 9]) ∧ (gopOfOne [7, 8, 9]).SizesRight ∧
    ∀ hdrByte (buf : List UInt8) ptr,
      ptr + ((gopOfOne [7, 8, 9]).written hdrByte).length ≤ buf.length →
      reconstructV3cGop hdrByte buf ptr m 0 =
        .ok ⟨(gopOfOne [7, 8, 9]).size hdrByte,
          overwrite buf ptr ((gopOfOne [7, 8, 9]).written hdrByte),
          ptr + ((gopOfOne [7, 8, 9]).written hdrByte).length,
          m.releaseGop 0 (gopOfOne [7, 8, 9])⟩ := by
  obtain ⟨m, hreach, hready, hgop⟩ := exists_gopOfOne [7, 8, 9]
  obtain ⟨-, hwritten, hright⟩ := reconstructV3cGop_sizeFields hreach hgop
  have hfit : (gopOfOne [7, 8, 9]).SizesFit := by
    simp only [Gop.SizesFit, Gop.streams, V3cUnitInfo.SizesFit]
    decide
  exact ⟨m, hreach, hready, hgop, hright.mpr hfit, hwritten⟩

/-- An atlas NAL unit of 65536 bytes is written behind a size field that says zero. -/
theorem atlasNal_sizeField_zero : ∃ m g n, Reachable m ∧ isGopReady 0 m = .ok true ∧
    m.HasGop 0 g ∧ g.ad.nalInfos = [n] ∧ n.payload.length = 65536 ∧
    ofBigEndian (sizeArr (UInt32.ofNat n.size) ATLAS_NAL_SIZE_PRECISION) = 0 ∧
    ¬ g.SizesRight ∧
    ∀ hdrByte (buf : List UInt8) ptr, ptr + (g.written hdrByte).length ≤ buf.length →
      ∃ gopSize ptr' m', reconstructV3cGop hdrByte buf ptr m 0 =
        .ok ⟨gopSize, overwrite buf ptr (g.written hdrByte), ptr', m'⟩ := by
  obtain ⟨m, hreach, hready, hgop⟩ := exists_gopOfOne (List.replicate 65536 7)
  have hlen : (List.replicate 65536 (7 : UInt8)).length = 65536 := List.length_replicate
  refine ⟨m, _, _, hreach, hready, hgop, rfl, hlen, ?_, fun hright => ?_, fun _ buf ptr hcap =>
    ⟨_, _, _, reconstructV3cGop_written hgop (hreach.live_gop hgop) _ hcap⟩⟩
  · dsimp only
    rw [hlen]
    decide
  · have hfit := (hreach.sizesRight_iff hgop).mp hright
    have hnal := (hfit.2 _ List.mem_cons_self).2 _ List.mem_cons_self
    exact absurd (hlen ▸ hnal) (by decide)

end RtpBenchmarks.V3c
