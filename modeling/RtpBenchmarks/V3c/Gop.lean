import RtpBenchmarks.V3c.Receive

set_option autoImplicit false

/-!
# V3C: writing a GoP

A GoP is one VPS unit and one unit of each stream.  Its size is computed twice
before it is written, by the same formula, from the size accumulators of the units;
`Gop.image` is what is written.  In a reachable state the two agree, because a
packed unit's accumulator is the sum of its NAL sizes.
-/

namespace RtpBenchmarks.V3c

open RtpBenchmarks.Foundation

/-! ## The units of a GoP -/

/-- What the writer uses of the five units with one index. -/
structure Gop where
  vpsNal : NalInfo
  ad : V3cUnitInfo
  ovd : V3cUnitInfo
  gvd : V3cUnitInfo
  avd : V3cUnitInfo
  deriving DecidableEq, Repr, Inhabited

/-- The map has the GoP `g` at `index`. -/
structure V3cFileMap.HasGop (m : V3cFileMap) (index : Nat) (g : Gop) : Prop where
  vps : ∃ u, m.vpsUnits[index]? = some u ∧ u.nalInfos = [g.vpsNal]
  ad : m.adUnits[index]? = some g.ad
  ovd : m.ovdUnits[index]? = some g.ovd
  gvd : m.gvdUnits[index]? = some g.gvd
  avd : m.avdUnits[index]? = some g.avd

namespace Gop

/-- The formula of `get_gop_size`. -/
def size (hdrByte : Bool) (g : Gop) : Nat :=
  (if hdrByte then 1 else 0) +
    (V3C_SIZE_PRECISION + g.vpsNal.size +
      (V3C_SIZE_PRECISION + 4 + 1 + g.ad.ptr
        + g.ad.nalInfos.length * ATLAS_NAL_SIZE_PRECISION) +
      (V3C_SIZE_PRECISION + 4 + g.ovd.ptr
        + g.ovd.nalInfos.length * VIDEO_NAL_SIZE_PRECISION) +
      (V3C_SIZE_PRECISION + 4 + g.gvd.ptr
        + g.gvd.nalInfos.length * VIDEO_NAL_SIZE_PRECISION) +
      (V3C_SIZE_PRECISION + 4 + g.avd.ptr
        + g.avd.nalInfos.length * VIDEO_NAL_SIZE_PRECISION))

/-- The sample stream header byte. -/
def streamHeader (hdrByte : Bool) : List UInt8 := if hdrByte then [64] else []

/-- The bytes of the VPS unit behind its size field. -/
def vpsImage (g : Gop) : List UInt8 :=
  sizeArr (UInt32.ofNat g.vpsNal.size) V3C_SIZE_PRECISION ++ g.vpsNal.payload

/-- The five units as they are written. -/
def unitsImage (g : Gop) : List UInt8 :=
  g.vpsImage ++ unitImage g.ad V3C_SIZE_PRECISION ATLAS_NAL_SIZE_PRECISION ++
    unitImage g.ovd V3C_SIZE_PRECISION VIDEO_NAL_SIZE_PRECISION ++
    unitImage g.gvd V3C_SIZE_PRECISION VIDEO_NAL_SIZE_PRECISION ++
    unitImage g.avd V3C_SIZE_PRECISION VIDEO_NAL_SIZE_PRECISION

/-- Everything `reconstruct_v3c_gop` writes of units as the receiving side builds them. -/
def image (hdrByte : Bool) (g : Gop) : List UInt8 := streamHeader hdrByte ++ g.unitsImage

/-- The units as the receiving side builds them, with a VPS unit that fits the 32-bit
size of the writer. -/
structure Packed (g : Gop) : Prop where
  vps : g.vpsNal.Live ∧ g.vpsNal.size < 2 ^ 32
  ad : g.ad.Packed ∧ g.ad.header.vuhUnitType = V3cUnitType.ad.code
  ovd : g.ovd.Packed ∧ g.ovd.header.vuhUnitType = V3cUnitType.ovd.code
  gvd : g.gvd.Packed ∧ g.gvd.header.vuhUnitType = V3cUnitType.gvd.code
  avd : g.avd.Packed ∧ g.avd.header.vuhUnitType = V3cUnitType.avd.code

/-- The bytes of the VPS unit that are copied: as many as its size says in 32 bits. -/
def vpsBytes (g : Gop) : List UInt8 := g.vpsNal.payload.take (g.vpsNal.size % 2 ^ 32)

/-- Everything `reconstruct_v3c_gop` writes. -/
def written (hdrByte : Bool) (g : Gop) : List UInt8 :=
  streamHeader hdrByte ++ sizeArr (UInt32.ofNat g.vpsNal.size) V3C_SIZE_PRECISION ++
    g.vpsBytes ++
    unitImage g.ad V3C_SIZE_PRECISION ATLAS_NAL_SIZE_PRECISION ++
    unitImage g.ovd V3C_SIZE_PRECISION VIDEO_NAL_SIZE_PRECISION ++
    unitImage g.gvd V3C_SIZE_PRECISION VIDEO_NAL_SIZE_PRECISION ++
    unitImage g.avd V3C_SIZE_PRECISION VIDEO_NAL_SIZE_PRECISION

/-- Every NAL unit of the GoP is there to be copied. -/
structure Live (g : Gop) : Prop where
  vps : g.vpsNal.Live
  ad : g.ad.Live
  ovd : g.ovd.Live
  gvd : g.gvd.Live
  avd : g.avd.Live

theorem Packed.toLive {g : Gop} (h : g.Packed) : g.Live :=
  ⟨h.vps.1, h.ad.1.live, h.ovd.1.live, h.gvd.1.live, h.avd.1.live⟩

/-- A VPS unit below `2 ^ 32` bytes is copied as a whole. -/
theorem vpsBytes_eq {g : Gop} (hlive : g.vpsNal.Live) (hsmall : g.vpsNal.size < 2 ^ 32) :
    g.vpsBytes = g.vpsNal.payload := by
  rw [vpsBytes, Nat.mod_eq_of_lt hsmall, ← hlive.length_payload, List.take_length]

theorem Packed.written_eq {g : Gop} (h : g.Packed) (hdrByte : Bool) :
    g.written hdrByte = g.image hdrByte := by
  simp only [written, vpsBytes_eq h.vps.1 h.vps.2, image, unitsImage, vpsImage, List.append_assoc]

end Gop

/-! ## Sizes -/

/-- The length of a packed unit's image, by its accumulator. -/
theorem length_unitImage {u : V3cUnitInfo} (h : u.Packed) (p q : Nat) :
    (unitImage u p q).length = p + 4 +
      (if hasNalPrecisionByte u.header.vuhUnitType then 1 else 0) +
      u.ptr + u.nalInfos.length * q := by
  have hnals := length_nalsImage (q := q) h.live
  have hprec : (precisionImage u.header.vuhUnitType q).length
      = if hasNalPrecisionByte u.header.vuhUnitType then 1 else 0 := by
    unfold precisionImage
    split_ifs <;> rfl
  simp only [unitImage, List.length_append, length_sizeArr, length_v3cHeader, hnals, hprec,
    h.ptr_eq]
  ring

/-- A packed GoP's image has the size the formula gives. -/
theorem Gop.length_image {g : Gop} (h : g.Packed) (hdrByte : Bool) :
    (g.image hdrByte).length = g.size hdrByte := by
  have hvps := h.vps.1.length_payload
  have hheader : (streamHeader hdrByte).length = if hdrByte then 1 else 0 := by
    cases hdrByte <;> rfl
  have had : hasNalPrecisionByte g.ad.header.vuhUnitType = true := by rw [h.ad.2]; rfl
  have hovd : hasNalPrecisionByte g.ovd.header.vuhUnitType = false := by rw [h.ovd.2]; rfl
  have hgvd : hasNalPrecisionByte g.gvd.header.vuhUnitType = false := by rw [h.gvd.2]; rfl
  have havd : hasNalPrecisionByte g.avd.header.vuhUnitType = false := by rw [h.avd.2]; rfl
  simp only [image, unitsImage, vpsImage, size, List.length_append, length_sizeArr, hvps,
    hheader, length_unitImage h.ad.1, length_unitImage h.ovd.1, length_unitImage h.gvd.1,
    length_unitImage h.avd.1, had, hovd, hgvd, havd, if_true, Bool.false_eq_true, if_false]

theorem getGopSize_eq {m : V3cFileMap} {index : Nat} {g : Gop} (h : m.HasGop index g)
    (hdrByte : Bool) : getGopSize hdrByte index m = .ok (g.size hdrByte) := by
  obtain ⟨u, hu, hnals⟩ := h.vps
  have hvps := elementAt_eq_ok_iff.mpr hu
  have hnal : elementAt u.nalInfos 0 = .ok g.vpsNal := by rw [hnals]; rfl
  simp only [getGopSize, hvps, hnal, elementAt_eq_ok_iff.mpr h.ad,
    elementAt_eq_ok_iff.mpr h.ovd, elementAt_eq_ok_iff.mpr h.gvd,
    elementAt_eq_ok_iff.mpr h.avd, ok_bind]
  rfl

/-! ## Writing at the end of what is written -/

section Writing

variable {buf w : List UInt8} {ptr : Nat}

/-- `create_v3c_unit` with the cursor behind what was written so far. -/
theorem createV3cUnit_overwrite {u : V3cUnitInfo} (hlive : u.Live) {p q : Nat}
    (hcap : ptr + (w ++ unitImage u p q).length ≤ buf.length) :
    createV3cUnit u (overwrite buf ptr w) (ptr + w.length) p q =
      .ok (u.released, overwrite buf ptr (w ++ unitImage u p q),
        ptr + (w ++ unitImage u p q).length) := by
  have hw := fits_of_append hcap
  have hlen := length_overwrite hw
  rw [List.length_append] at hcap
  rw [createV3cUnit_eq hlive (by omega), overwrite_overwrite buf w _ hw,
    List.length_append, Nat.add_assoc]

/-- One of the four stream units of a GoP. -/
theorem createUnitOf_overwrite {m : V3cFileMap} {index : Nat} {t : V3cUnitType}
    {u : V3cUnitInfo} (hu : (m.units t)[index]? = some u) (hlive : u.Live) {q : Nat}
    (hcap : ptr + (w ++ unitImage u V3C_SIZE_PRECISION q).length ≤ buf.length) :
    createUnitOf t q (overwrite buf ptr w) (ptr + w.length) m index =
      .ok (overwrite buf ptr (w ++ unitImage u V3C_SIZE_PRECISION q),
        ptr + (w ++ unitImage u V3C_SIZE_PRECISION q).length,
        m.setUnits ((m.units t).set index u.released) t) := by
  rw [createUnitOf, elementAt_eq_ok_iff.mpr hu, ok_bind,
    createV3cUnit_overwrite hlive hcap, ok_bind]
  rfl

/-- The sample stream header at the cursor. -/
theorem writeStreamHeader_eq {hdrByte : Bool}
    (hcap : ptr + (Gop.streamHeader hdrByte).length ≤ buf.length) :
    writeStreamHeader hdrByte buf ptr =
      .ok (overwrite buf ptr (Gop.streamHeader hdrByte),
        ptr + (Gop.streamHeader hdrByte).length) := by
  cases hdrByte with
  | false => simp [writeStreamHeader, Gop.streamHeader, pure, Except.pure]
  | true =>
    have hstore : storeBytes buf ptr [64] = .ok (overwrite buf ptr [64]) :=
      storeBytes_of_le hcap
    rw [writeStreamHeader, if_pos rfl, hstore, ok_bind]
    rfl

end Writing

/-- The map after the GoP was written: its stream units are released. -/
def V3cFileMap.releaseGop (m : V3cFileMap) (index : Nat) (g : Gop) : V3cFileMap :=
  { m with
    adUnits := m.adUnits.set index g.ad.released
    ovdUnits := m.ovdUnits.set index g.ovd.released
    gvdUnits := m.gvdUnits.set index g.gvd.released
    avdUnits := m.avdUnits.set index g.avd.released }

/-- `reconstruct_v3c_gop` writes the units at the cursor and advances the cursor behind them. -/
theorem reconstructV3cGop_written {m : V3cFileMap} {index : Nat} {g : Gop}
    (hgop : m.HasGop index g) (hlive : g.Live) (hdrByte : Bool)
    {buf : List UInt8} {ptr : Nat} (hcap : ptr + (g.written hdrByte).length ≤ buf.length) :
    reconstructV3cGop hdrByte buf ptr m index =
      .ok ⟨g.size hdrByte, overwrite buf ptr (g.written hdrByte),
        ptr + (g.written hdrByte).length, m.releaseGop index g⟩ := by
  obtain ⟨u, hu, hnals⟩ := hgop.vps
  have hvps := elementAt_eq_ok_iff.mpr hu
  have hnal : elementAt u.nalInfos 0 = .ok g.vpsNal := by rw [hnals]; rfl
  have hback : lastElement u.nalInfos = .ok g.vpsNal := by rw [hnals]; rfl
  have hsize : (UInt32.ofNat g.vpsNal.size).toNat = g.vpsNal.size % 2 ^ 32 := UInt32.toNat_ofNat'
  have hload : loadThrough g.vpsNal.buf (g.vpsNal.size % 2 ^ 32) = .ok g.vpsBytes :=
    hlive.vps.loadThrough_take (Nat.mod_le _ _)
  have hbytes : g.vpsBytes.length = g.vpsNal.size % 2 ^ 32 := by
    rw [Gop.vpsBytes, List.length_take, hlive.vps.length_payload,
      Nat.min_eq_left (Nat.mod_le _ _)]
  unfold Gop.written at hcap ⊢
  -- the cursor is always behind what was written so far
  generalize hw0 : Gop.streamHeader hdrByte = w0 at hcap ⊢
  generalize hw1 : w0 ++ sizeArr (UInt32.ofNat g.vpsNal.size) V3C_SIZE_PRECISION = w1
    at hcap ⊢
  generalize hw2 : w1 ++ g.vpsBytes = w2 at hcap ⊢
  generalize hw3 : w2 ++ unitImage g.ad V3C_SIZE_PRECISION ATLAS_NAL_SIZE_PRECISION = w3
    at hcap ⊢
  generalize hw4 : w3 ++ unitImage g.ovd V3C_SIZE_PRECISION VIDEO_NAL_SIZE_PRECISION = w4
    at hcap ⊢
  generalize hw5 : w4 ++ unitImage g.gvd V3C_SIZE_PRECISION VIDEO_NAL_SIZE_PRECISION = w5
    at hcap ⊢
  have c5 := fits_of_append hcap
  have c4 := fits_of_append (hw5 ▸ c5)
  have c3 := fits_of_append (hw4 ▸ c4)
  have c2 := fits_of_append (hw3 ▸ c3)
  have c1 := fits_of_append (hw2 ▸ c2)
  have c0 := fits_of_append (hw1 ▸ c1)
  have e0 : writeStreamHeader hdrByte buf ptr =
      .ok (overwrite buf ptr w0, ptr + w0.length) := by
    subst hw0
    exact writeStreamHeader_eq c0
  have e1 : storeBytes (overwrite buf ptr w0) (ptr + w0.length)
      (sizeArr (UInt32.ofNat g.vpsNal.size) V3C_SIZE_PRECISION)
      = .ok (overwrite buf ptr w1) := by
    subst hw1
    exact storeBytes_overwrite buf w0 _ c1
  have p1 : ptr + w0.length + V3C_SIZE_PRECISION = ptr + w1.length := by
    rw [← hw1, List.length_append, length_sizeArr, Nat.add_assoc]
  have e2 : storeBytes (overwrite buf ptr w1) (ptr + w1.length) g.vpsBytes
      = .ok (overwrite buf ptr w2) := by
    subst hw2
    exact storeBytes_overwrite buf w1 _ c2
  have p2 : ptr + w1.length + g.vpsNal.size % 2 ^ 32 = ptr + w2.length := by
    rw [← hw2, List.length_append, hbytes, Nat.add_assoc]
  unfold reconstructV3cGop
  simp only [hvps, hnal, hback, elementAt_eq_ok_iff.mpr hgop.ad,
    elementAt_eq_ok_iff.mpr hgop.ovd, elementAt_eq_ok_iff.mpr hgop.gvd,
    elementAt_eq_ok_iff.mpr hgop.avd, ok_bind, e0, e1, p1, hsize, hload, e2, p2]
  subst hw3
  rw [createUnitOf_overwrite hgop.ad hlive.ad c3, ok_bind]
  subst hw4
  rw [createUnitOf_overwrite hgop.ovd hlive.ovd c4, ok_bind]
  subst hw5
  rw [createUnitOf_overwrite hgop.gvd hlive.gvd c5, ok_bind,
    createUnitOf_overwrite hgop.avd hlive.avd hcap, ok_bind]
  rfl

/-- `reconstruct_v3c_gop` writes the image of a packed GoP at the cursor and advances the
cursor by its length. -/
theorem reconstructV3cGop_eq {m : V3cFileMap} {index : Nat} {g : Gop}
    (hgop : m.HasGop index g) (hpacked : g.Packed) (hdrByte : Bool)
    {buf : List UInt8} {ptr : Nat} (hcap : ptr + g.size hdrByte ≤ buf.length) :
    reconstructV3cGop hdrByte buf ptr m index =
      .ok ⟨g.size hdrByte, overwrite buf ptr (g.image hdrByte), ptr + g.size hdrByte,
        m.releaseGop index g⟩ := by
  have hwritten := hpacked.written_eq hdrByte
  rw [← Gop.length_image hpacked, ← hwritten] at hcap
  rw [reconstructV3cGop_written hgop hpacked.toLive hdrByte hcap, hwritten,
    Gop.length_image hpacked]

/-- In a reachable state a unit of a stream is packed and has the type of the stream. -/
theorem Reachable.packed_at {m : V3cFileMap} (h : Reachable m) {t : V3cUnitType}
    (ht : t.hasStream = true) {index : Nat} {u : V3cUnitInfo}
    (hu : (m.units t)[index]? = some u) : u.Packed ∧ u.header.vuhUnitType = t.code :=
  h.packed ht u (List.mem_of_getElem? hu)

/-- In a reachable state every NAL unit of a GoP is there to be copied. -/
theorem Reachable.live_gop {m : V3cFileMap} (h : Reachable m) {index : Nat} {g : Gop}
    (hgop : m.HasGop index g) : g.Live where
  vps := by
    obtain ⟨u, hu, hnals⟩ := hgop.vps
    obtain ⟨n, hn, hlive⟩ := h.vps_nal u (List.mem_of_getElem? hu)
    rw [hnals] at hn
    cases hn
    exact hlive
  ad := (h.packed_at (t := .ad) rfl hgop.ad).1.live
  ovd := (h.packed_at (t := .ovd) rfl hgop.ovd).1.live
  gvd := (h.packed_at (t := .gvd) rfl hgop.gvd).1.live
  avd := (h.packed_at (t := .avd) rfl hgop.avd).1.live

/-- In a reachable state a GoP with a VPS unit below `2 ^ 32` bytes is packed. -/
theorem Reachable.packed_gop {m : V3cFileMap} (h : Reachable m) {index : Nat} {g : Gop}
    (hgop : m.HasGop index g) (hvps : g.vpsNal.size < 2 ^ 32) : g.Packed where
  vps := ⟨(h.live_gop hgop).vps, hvps⟩
  ad := h.packed_at (t := .ad) rfl hgop.ad
  ovd := h.packed_at (t := .ovd) rfl hgop.ovd
  gvd := h.packed_at (t := .gvd) rfl hgop.gvd
  avd := h.packed_at (t := .avd) rfl hgop.avd

/-- Where all five units exist there is a GoP. -/
theorem Reachable.hasGop {m : V3cFileMap} (h : Reachable m) {index : Nat}
    (hvps : index < m.vpsUnits.length) (had : index < m.adUnits.length)
    (hovd : index < m.ovdUnits.length) (hgvd : index < m.gvdUnits.length)
    (havd : index < m.avdUnits.length) :
    ∃ g, m.HasGop index g ∧ ∃ u ∈ m.vpsUnits, g.vpsNal ∈ u.nalInfos := by
  have hmem := List.getElem_mem hvps
  obtain ⟨n, hnals, _⟩ := h.vps_nal _ hmem
  exact ⟨⟨n, _, _, _, _⟩,
    ⟨⟨_, List.getElem?_eq_getElem hvps, hnals⟩, List.getElem?_eq_getElem had,
      List.getElem?_eq_getElem hovd, List.getElem?_eq_getElem hgvd,
      List.getElem?_eq_getElem havd⟩,
    _, hmem, by rw [hnals]; exact List.mem_singleton_self n⟩

/-- In a reachable state, for an index with all five units and NAL units below `2 ^ 32`
bytes: `get_gop_size` is what `reconstruct_v3c_gop` returns and the amount by which it
advances the cursor, and the call fills exactly that many bytes at the cursor, with the
same bytes whatever the buffer held, and touches no others. -/
theorem reconstructV3cGop_fills {m : V3cFileMap} (h : Reachable m) {index : Nat}
    (hvps : index < m.vpsUnits.length) (had : index < m.adUnits.length)
    (hovd : index < m.ovdUnits.length) (hgvd : index < m.gvdUnits.length)
    (havd : index < m.avdUnits.length)
    (hsize : ∀ t, ∀ u ∈ m.units t, ∀ n ∈ u.nalInfos, n.size < 2 ^ 32) (hdrByte : Bool) :
    ∃ gopSize image, getGopSize hdrByte index m = .ok gopSize ∧
      image.length = gopSize ∧
      ∀ buf ptr, ptr + gopSize ≤ buf.length → ∃ m',
        reconstructV3cGop hdrByte buf ptr m index =
          .ok ⟨gopSize, overwrite buf ptr image, ptr + gopSize, m'⟩ := by
  obtain ⟨g, hgop, u, hu, hn⟩ := h.hasGop hvps had hovd hgvd havd
  have hpacked := h.packed_gop hgop (hsize .vps u hu _ hn)
  exact ⟨_, _, getGopSize_eq hgop hdrByte, Gop.length_image hpacked hdrByte,
    fun buf ptr hcap => ⟨_, reconstructV3cGop_eq hgop hpacked hdrByte hcap⟩⟩

/-- A VPS unit of two bytes and an atlas NAL unit of three in the first GoP. -/
theorem reconstructV3cGop_fills_first :
    ∃ m, Reachable m ∧ m.vpsUnits.length = 1 ∧ m.adUnits.map (·.ptr) = [3] ∧
      ∃ gopSize image, getGopSize true 0 m = .ok gopSize ∧ image.length = gopSize ∧
        ∀ buf ptr, ptr + gopSize ≤ buf.length → ∃ m',
          reconstructV3cGop true buf ptr m 0 =
            .ok ⟨gopSize, overwrite buf ptr image, ptr + gopSize, m'⟩ := by
  have hcopy : copyRtpPayload (initMmap.units .ad) 1 ⟨[7, 8, 9]⟩ = .ok _ := rfl
  have hvps : NalInfo.Live { size := 2, buf := some [0, 9] } := ⟨_, rfl, rfl⟩
  have hreach := Reachable.vps (Reachable.copy .init rfl hcopy)
    (rfl : V3cUnitInfo.nalInfos { header := {}, nalInfos := [_] } = [_]) hvps
  refine ⟨_, hreach, rfl, rfl, reconstructV3cGop_fills hreach (by decide) (by decide)
    (by decide) (by decide) (by decide) ?_ true⟩
  intro t
  cases t <;> decide

end RtpBenchmarks.V3c
