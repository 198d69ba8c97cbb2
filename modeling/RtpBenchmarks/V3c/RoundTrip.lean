import Mathlib.Algebra.Order.BigOperators.Group.List
import RtpBenchmarks.V3c.Gop
import RtpBenchmarks.V3c.HeaderCodec

set_option autoImplicit false

/-!
# V3C: what is written is read back

The writer takes its sizes from the accumulators of the receiving side and its
precisions from constants; the parser takes both from the bytes.  Each unit of a
written GoP is shown to be readable in the sense of `ReadableUnit`; what the parser
finds in a file of any number of GoPs follows from the theory of sample streams.
-/

namespace RtpBenchmarks.V3c

open RtpBenchmarks.Foundation

/-! ## Size fields -/

/-- A 32-bit number in a field it fits, as the writer and as the format write it. -/
theorem sizeArr_ofNat {size n : Nat} (hn : n ≤ 4) (hsize : size < 2 ^ 32) :
    sizeArr (UInt32.ofNat size) n = bigEndian n size := by
  rw [sizeArr_eq _ hn, UInt32.toNat_ofNat', Nat.mod_eq_of_lt hsize]

/-- The NAL size precision a unit type is written with. -/
def nalPrecisionOf (t : V3cUnitType) : Nat :=
  if t = .ad then ATLAS_NAL_SIZE_PRECISION else VIDEO_NAL_SIZE_PRECISION

/-- How many bytes the unit has when written, its size field not counted. -/
def V3cUnitInfo.writtenSize (u : V3cUnitInfo) (nalPrecision : Nat) : Nat :=
  4 + (if hasNalPrecisionByte u.header.vuhUnitType then 1 else 0) +
    (u.nalInfos.map (·.size)).sum + u.nalInfos.length * nalPrecision

/-- `v3c_size_int` is that number, in 32 bits. -/
theorem v3cSizeInt_eq {u : V3cUnitInfo} (hu : u.Packed) (q : Nat) :
    v3cSizeInt u q = UInt32.ofNat (u.writtenSize q) := by
  unfold v3cSizeInt V3cUnitInfo.writtenSize
  rw [← hu.ptr_eq]
  split_ifs
  · rw [Nat.add_right_comm 4, Nat.add_right_comm (4 + u.ptr)]
    simp only [UInt32.ofNat_add, UInt32.ofNat_mul]
    rfl
  · simp only [UInt32.ofNat_add, UInt32.ofNat_mul]
    rfl

/-! ## Units -/

/-- The first header byte holds the unit type. -/
theorem v3cHeader_typeBits {hdr : V3cUnitHeader} {b0 b1 b2 b3 : UInt8}
    (h : v3cHeader hdr = [b0, b1, b2, b3]) (htype : hdr.vuhUnitType.toNat < 2 ^ 5) :
    (b0 &&& 0b11111000) >>> 3 = hdr.vuhUnitType := by
  have h0 : b0 = typeByte hdr.vuhUnitType hdr.vuh.adParameterSetId := by
    unfold v3cHeader at h
    dsimp only at h
    split_ifs at h <;> (injection h with h0; exact h0.symm)
  rw [h0]
  exact typeBits_typeByte htype

/-- The NAL units of a unit, as the writer and as the format write them. -/
theorem nalsImage_eq {q : Nat} (hq : q ≤ 4) {ns : List NalInfo} (hlive : ∀ n ∈ ns, n.Live)
    (hsize : ∀ n ∈ ns, n.size < 2 ^ 32) :
    nalsImage q ns = SampleBody.nalStream q (ns.map NalInfo.payload) := by
  induction ns with
  | nil => rfl
  | cons n ns ih =>
    rw [nalsImage_cons, List.map_cons, nalStream_cons,
      ih (fun m hm => hlive m (List.mem_cons_of_mem n hm))
        (fun m hm => hsize m (List.mem_cons_of_mem n hm)),
      sizeArr_ofNat hq (hsize n List.mem_cons_self),
      (hlive n List.mem_cons_self).length_payload, List.append_assoc]

/-- The payload a stream unit is written with. -/
def V3cUnitInfo.body (u : V3cUnitInfo) (t : V3cUnitType) : SampleBody :=
  if t = .ad then .atlas 0b00100000 (u.nalInfos.map NalInfo.payload)
  else .video (u.nalInfos.map NalInfo.payload)

/-- A packed stream unit that fits its size fields. -/
structure V3cUnitInfo.Representable (u : V3cUnitInfo) (t : V3cUnitType) : Prop where
  packed : u.Packed
  type_eq : u.header.vuhUnitType = t.code
  nal_size : t = .ad → ∀ n ∈ u.nalInfos, n.size < 2 ^ 16
  unit_size : u.writtenSize (nalPrecisionOf t) < 2 ^ 24

namespace V3cUnitInfo.Representable

variable {u : V3cUnitInfo} {t : V3cUnitType}

/-- No NAL unit is larger than its unit. -/
theorem nal_lt (h : u.Representable t) : ∀ n ∈ u.nalInfos, n.size < 2 ^ 24 := by
  intro n hn
  have hle : n.size ≤ (u.nalInfos.map (·.size)).sum :=
    List.le_sum_of_mem (List.mem_map_of_mem hn)
  have hunit := h.unit_size
  unfold V3cUnitInfo.writtenSize at hunit
  omega

theorem nals_eq (h : u.Representable t) {q : Nat} (hq : q ≤ 4) :
    nalsImage q u.nalInfos =
      SampleBody.nalStream q (u.nalInfos.map NalInfo.payload) :=
  nalsImage_eq hq h.packed.live fun n hn => Nat.lt_trans (h.nal_lt n hn) (by decide)

/-- What follows the header. -/
theorem body_bytes (h : u.Representable t) (ht : t.hasStream = true) :
    precisionImage u.header.vuhUnitType (nalPrecisionOf t)
      ++ nalsImage (nalPrecisionOf t) u.nalInfos = (u.body t).bytes := by
  have hatlas := h.nals_eq (q := ATLAS_NAL_SIZE_PRECISION) (by decide)
  have hvideo := h.nals_eq (q := VIDEO_NAL_SIZE_PRECISION) (by decide)
  rw [h.type_eq]
  cases t with
  | ad =>
    change _ ++ nalsImage ATLAS_NAL_SIZE_PRECISION _ = _
    rw [hatlas]
    rfl
  | ovd | gvd | avd =>
    change _ ++ nalsImage VIDEO_NAL_SIZE_PRECISION _ = _
    rw [hvideo]
    rfl
  | vps | pvd | cad => cases ht

theorem length_body (h : u.Representable t) (ht : t.hasStream = true) :
    4 + (u.body t).bytes.length = u.writtenSize (nalPrecisionOf t) := by
  have himage := length_unitImage h.packed V3C_SIZE_PRECISION (nalPrecisionOf t)
  rw [unitImage, List.append_assoc, h.body_bytes ht, List.length_append,
    List.length_append, length_sizeArr, length_v3cHeader, h.packed.ptr_eq] at himage
  unfold V3cUnitInfo.writtenSize
  omega

theorem body_nal_size (h : u.Representable t) :
    ∀ nal ∈ (u.body t).nals, nal.length < 256 ^ (u.body t).nalPrecision := by
  have hlen : ∀ n ∈ u.nalInfos, n.payload.length = n.size := fun n hn =>
    (h.packed.live n hn).length_payload
  unfold V3cUnitInfo.body
  split_ifs with hatlas
  · intro nal hnal
    obtain ⟨n, hn, rfl⟩ := List.mem_map.mp hnal
    rw [hlen n hn]
    exact h.nal_size hatlas n hn
  · intro nal hnal
    obtain ⟨n, hn, rfl⟩ := List.mem_map.mp hnal
    rw [hlen n hn]
    exact Nat.lt_trans (h.nal_lt n hn) (by decide : 2 ^ 24 < 256 ^ 4)

theorem body_precision : 2 ≤ (u.body t).nalPrecision ∧ (u.body t).nalPrecision ≤ 4 := by
  unfold V3cUnitInfo.body
  split_ifs
  · exact (by decide : 2 ≤ 2 ∧ 2 ≤ 4)
  · exact (by decide : 2 ≤ 4 ∧ 4 ≤ 4)

theorem body_fits (ht : t.hasStream = true) : (u.body t).Fits t := by
  cases t with
  | ad => exact Or.inl rfl
  | ovd => exact Or.inl rfl
  | gvd => exact Or.inr (Or.inl rfl)
  | avd => exact Or.inr (Or.inr (Or.inl rfl))
  | vps | pvd | cad => cases ht

/-- A representable unit is written as a well-formed unit of its type with its NAL
units as payload. -/
theorem sample (h : u.Representable t) (ht : t.hasStream = true) :
    ∃ s : SampleUnit 3, s.unitType = t ∧
      s.sized = unitImage u V3C_SIZE_PRECISION (nalPrecisionOf t) ∧
      s.contents = u.nalInfos.map NalInfo.payload := by
  obtain ⟨b0, b1, b2, b3, hbytes⟩ := exists_header_bytes u.header
  have hcode : t.code.toNat < 2 ^ 5 := by cases t <;> decide
  have htype := v3cHeader_typeBits hbytes (by rw [h.type_eq]; exact hcode)
  have hlen := h.length_body ht
  have hunit := h.unit_size
  refine ⟨{
    unitType := t, b0, b1, b2, b3, body := u.body t
    type_eq := htype.trans h.type_eq
    body_fits := body_fits ht
    precision_ok := body_precision
    nal_size := h.body_nal_size
    unit_size := by omega }, rfl, ?_, ?_⟩
  · have hsized : sizeArr (v3cSizeInt u (nalPrecisionOf t)) V3C_SIZE_PRECISION
        = bigEndian 3 (u.writtenSize (nalPrecisionOf t)) := by
      rw [v3cSizeInt_eq h.packed]
      exact sizeArr_ofNat (by decide) (Nat.lt_trans hunit (by decide))
    have hbody : (b0 :: b1 :: b2 :: b3 :: (u.body t).bytes).length
        = u.writtenSize (nalPrecisionOf t) := by
      simp only [List.length_cons]
      omega
    change bigEndian 3 (b0 :: b1 :: b2 :: b3 :: (u.body t).bytes).length ++ _ = _
    rw [hbody, unitImage, hsized, List.append_assoc, List.append_assoc, h.body_bytes ht,
      hbytes]
    rfl
  · unfold SampleUnit.contents V3cUnitInfo.body
    split_ifs <;> rfl

end V3cUnitInfo.Representable

/-- The bytes begin with the header byte of a VPS unit. -/
def BeginsWithVps (bs : List UInt8) : Prop :=
  ∃ b rest, bs = b :: rest ∧ (b &&& 0b11111000) >>> 3 = V3cUnitType.vps.code

/-- A VPS unit is readable from one byte on: of its header only the type is looked
at. -/
theorem scanUnit_vps {payload : List UInt8} (h : BeginsWithVps payload)
    (hsize : payload.length < 2 ^ 24) (pre post : List UInt8) :
    scanUnit (pre ++ (bigEndian 3 payload.length ++ payload ++ post)) 3 pre.length =
      .ok ⟨pre.length + 3, payload.length,
        { header := {}, nalInfos := [{ location := pre.length + 3,
                                       size := payload.length }] }⟩ := by
  obtain ⟨b, rest, hpayload, htype⟩ := h
  have hpre : (pre ++ bigEndian 3 payload.length).length = pre.length + 3 := by simp
  have hb : loadByte (pre ++ (bigEndian 3 payload.length ++ payload ++ post))
      (pre.length + 3) = .ok b := by
    rw [← hpre, hpayload, List.append_assoc, ← List.append_assoc pre, List.cons_append]
    exact loadByte_append _ _ _
  refine scanUnit_eq_ok_iff.mpr ⟨payload.length, {}, _, ?_, ?_, rfl, rfl⟩
  · rw [readUnitSize_eq, if_neg (by simp), if_pos (Or.inr rfl), List.append_assoc,
      bigEndianAt_append pre _ (by exact hsize)]
  · unfold parseV3cHeader
    rw [hb, ok_bind]
    simp only [htype]
    rfl

/-- A VPS unit as the parser sees it. -/
def vpsReadable {payload : List UInt8} (h : BeginsWithVps payload)
    (hsize : payload.length < 2 ^ 24) : ReadableUnit 3 where
  unitType := .vps
  bytes := payload
  info start := { header := {}, nalInfos := [{ location := start, size := payload.length }] }
  contents := [payload]
  scan_eq := scanUnit_vps h hsize
  type_eq _ := rfl
  slices_eq pre post := by simp [NalInfo.slice]

/-! ## GoPs -/

/-- A GoP that fits its size fields. -/
structure Gop.Representable (g : Gop) : Prop where
  vps : g.vpsNal.Live ∧ g.vpsNal.size < 2 ^ 24 ∧ BeginsWithVps g.vpsNal.payload
  ad : g.ad.Representable .ad
  ovd : g.ovd.Representable .ovd
  gvd : g.gvd.Representable .gvd
  avd : g.avd.Representable .avd

namespace Gop

/-- Type and NAL units of the five units of a GoP. -/
def contents (g : Gop) : List (V3cUnitType × List (List UInt8)) :=
  [(.vps, [g.vpsNal.payload]),
    (.ad, g.ad.nalInfos.map NalInfo.payload),
    (.ovd, g.ovd.nalInfos.map NalInfo.payload),
    (.gvd, g.gvd.nalInfos.map NalInfo.payload),
    (.avd, g.avd.nalInfos.map NalInfo.payload)]

theorem Representable.packed {g : Gop} (h : g.Representable) : g.Packed where
  vps := ⟨h.vps.1, Nat.lt_trans h.vps.2.1 (by decide)⟩
  ad := ⟨h.ad.packed, h.ad.type_eq⟩
  ovd := ⟨h.ovd.packed, h.ovd.type_eq⟩
  gvd := ⟨h.gvd.packed, h.gvd.type_eq⟩
  avd := ⟨h.avd.packed, h.avd.type_eq⟩

/-- A representable GoP is written as five readable units with its NAL units as
contents. -/
theorem Representable.readable {g : Gop} (h : g.Representable) :
    ∃ us : List (ReadableUnit 3), us.flatMap ReadableUnit.sized = g.unitsImage ∧
      us.map (fun u => (u.unitType, u.contents)) = g.contents := by
  have h3 : 3 = 2 ∨ 3 = 3 := Or.inr rfl
  have hlen : g.vpsNal.payload.length = g.vpsNal.size := h.vps.1.length_payload
  have hvps : sizeArr (UInt32.ofNat g.vpsNal.size) V3C_SIZE_PRECISION
      = bigEndian 3 g.vpsNal.payload.length := by
    rw [hlen]
    exact sizeArr_ofNat (by decide) (Nat.lt_trans h.vps.2.1 (by decide))
  obtain ⟨ad, had, hadBytes, hadNals⟩ := h.ad.sample rfl
  obtain ⟨ovd, hovd, hovdBytes, hovdNals⟩ := h.ovd.sample rfl
  obtain ⟨gvd, hgvd, hgvdBytes, hgvdNals⟩ := h.gvd.sample rfl
  obtain ⟨avd, havd, havdBytes, havdNals⟩ := h.avd.sample rfl
  refine ⟨[vpsReadable h.vps.2.2 (by rw [hlen]; exact h.vps.2.1), ad.readable h3,
    ovd.readable h3, gvd.readable h3, avd.readable h3], ?_, ?_⟩
  · change bigEndian 3 g.vpsNal.payload.length ++ g.vpsNal.payload ++ (ad.sized ++
      (ovd.sized ++ (gvd.sized ++ (avd.sized ++ [])))) = _
    rw [hadBytes, hovdBytes, hgvdBytes, havdBytes, ← hvps]
    simp only [unitsImage, vpsImage, List.append_assoc, List.append_nil]
    rfl
  · change [(V3cUnitType.vps, [g.vpsNal.payload]), (ad.unitType, ad.contents),
      (ovd.unitType, ovd.contents), (gvd.unitType, gvd.contents),
      (avd.unitType, avd.contents)] = _
    rw [had, hovd, hgvd, havd, hadNals, hovdNals, hgvdNals, havdNals]
    rfl

end Gop

/-! ## Any number of GoPs -/

/-- `reconstruct_v3c_gop` for the indices `0..n-1`, with the sample stream header
before the first. -/
def reconstructGops (n : Nat) (buf : List UInt8) (ptr : Nat) (mmap : V3cFileMap) :
    Except MemFault (List UInt8 × Nat × V3cFileMap) :=
  (List.range n).foldlM (fun (buf, ptr, mmap) index => do
    let w ← reconstructV3cGop (index == 0) buf ptr mmap index
    pure (w.buf, w.ptr, w.mmap)) (buf, ptr, mmap)

/-- The size of the buffer that takes: the sum of `get_gop_size`. -/
def gopSizes (n : Nat) (mmap : V3cFileMap) : Except MemFault Nat :=
  (List.range n).foldlM (fun total index => do
    let gopSize ← getGopSize (index == 0) index mmap
    pure (total + gopSize)) 0

/-- The bytes of the first `n` GoPs. -/
def gopImages (g : Nat → Gop) (n : Nat) : List UInt8 :=
  (List.range n).flatMap fun index => (g index).image (index == 0)

theorem gopImages_succ (g : Nat → Gop) (n : Nat) :
    gopImages g (n + 1) = gopImages g n ++ (g n).image (n == 0) := by
  simp [gopImages, List.range_succ]

/-- A written GoP leaves the others as they were. -/
theorem V3cFileMap.HasGop.releaseGop {m : V3cFileMap} {i j : Nat} {g g' : Gop}
    (h : m.HasGop j g) (hij : i ≠ j) : (m.releaseGop i g').HasGop j g where
  vps := h.vps
  ad := (List.getElem?_set_ne hij).trans h.ad
  ovd := (List.getElem?_set_ne hij).trans h.ovd
  gvd := (List.getElem?_set_ne hij).trans h.gvd
  avd := (List.getElem?_set_ne hij).trans h.avd

section Gops

variable {m : V3cFileMap} {g : Nat → Gop} {n : Nat}

/-- Writing GoPs one after the other writes their bytes one after the other. -/
theorem reconstructGops_eq (hgop : ∀ i < n, m.HasGop i (g i))
    (hpacked : ∀ i < n, (g i).Packed) {buf : List UInt8} {ptr : Nat}
    (hcap : ptr + (gopImages g n).length ≤ buf.length) :
    ∃ m', reconstructGops n buf ptr m =
        .ok (overwrite buf ptr (gopImages g n), ptr + (gopImages g n).length, m') ∧
      ∀ j g', n ≤ j → m.HasGop j g' → m'.HasGop j g' := by
  induction n with
  | zero =>
    refine ⟨m, ?_, fun _ _ _ h => h⟩
    simp [reconstructGops, gopImages, pure, Except.pure]
  | succ n ih =>
    rw [gopImages_succ] at hcap ⊢
    have hcap' := hcap
    rw [List.length_append] at hcap'
    obtain ⟨m', hrun, hkeep⟩ := ih (fun i hi => hgop i (Nat.lt_succ_of_lt hi))
      (fun i hi => hpacked i (Nat.lt_succ_of_lt hi)) (by omega)
    have hg := hkeep n (g n) (Nat.le_refl n) (hgop n (Nat.lt_succ_self n))
    have hp := hpacked n (Nat.lt_succ_self n)
    have hsize := Gop.length_image hp (n == 0)
    have hw : ptr + (gopImages g n).length ≤ buf.length := by omega
    have hlen := length_overwrite hw
    have hcap2 : ptr + (gopImages g n).length + (g n).size (n == 0)
        ≤ (overwrite buf ptr (gopImages g n)).length := by
      omega
    have hstep := reconstructV3cGop_eq hg hp (n == 0) hcap2
    rw [overwrite_overwrite buf _ _ hw] at hstep
    refine ⟨m'.releaseGop n (g n), ?_, fun j g' hj h =>
      (hkeep j g' (Nat.le_of_succ_le hj) h).releaseGop (Nat.ne_of_lt hj)⟩
    rw [reconstructGops, List.range_succ, List.foldlM_append]
    change (reconstructGops n buf ptr m >>= _) = _
    rw [hrun, ok_bind, List.foldlM_cons]
    dsimp only
    rw [hstep, ok_bind, List.length_append, hsize, Nat.add_assoc]
    rfl

/-- The computed sizes are the sizes of what is written. -/
theorem gopSizes_eq (hgop : ∀ i < n, m.HasGop i (g i)) (hpacked : ∀ i < n, (g i).Packed) :
    gopSizes n m = .ok (gopImages g n).length := by
  induction n with
  | zero => rfl
  | succ n ih =>
    have hrun := ih (fun i hi => hgop i (Nat.lt_succ_of_lt hi))
      (fun i hi => hpacked i (Nat.lt_succ_of_lt hi))
    have hsize := Gop.length_image (hpacked n (Nat.lt_succ_self n)) (n == 0)
    rw [gopSizes, List.range_succ, List.foldlM_append]
    change (gopSizes n m >>= _) = _
    rw [hrun, ok_bind, List.foldlM_cons,
      getGopSize_eq (hgop n (Nat.lt_succ_self n)) (n == 0), ok_bind, gopImages_succ,
      List.length_append, hsize]
    rfl

/-- The sample stream header comes once, before everything else. -/
theorem gopImages_eq (hn : 1 ≤ n) :
    gopImages g n = 64 :: (List.range n).flatMap fun i => (g i).unitsImage := by
  induction n, hn using Nat.le_induction with
  | base => simp [gopImages, Gop.image, Gop.streamHeader]
  | succ n hn ih =>
    have hne : (n == 0) = false := by
      rw [beq_eq_false_iff_ne]
      omega
    rw [gopImages_succ, ih, hne, List.range_succ, List.flatMap_append,
      List.flatMap_singleton, Gop.image]
    rfl

end Gops

/-! ## The round trip -/

/-- The first `n` elements by their indices. -/
theorem map_take_eq {α β : Type} {xs : List α} {n : Nat} {f : α → β} {k : Nat → β}
    (h : ∀ i < n, ∃ x, xs[i]? = some x ∧ f x = k i) :
    (xs.take n).map f = (List.range n).map k := by
  apply List.ext_getElem?
  intro i
  by_cases hi : i < n
  · obtain ⟨x, hx, hfx⟩ := h i hi
    simp [hi, hx, hfx]
  · simp [hi]

/-- The sizes in the first `n` units of each list fit the fields they are written to,
and the NAL units of the VPS units begin with a VPS header byte. -/
structure V3cFileMap.Representable (m : V3cFileMap) (n : Nat) : Prop where
  vps_header : ∀ u ∈ m.vpsUnits.take n, ∀ nal ∈ u.nalInfos, BeginsWithVps nal.payload
  vps_size : ∀ u ∈ m.vpsUnits.take n, ∀ nal ∈ u.nalInfos, nal.size < 2 ^ 24
  atlas_nal_size : ∀ u ∈ m.adUnits.take n, ∀ nal ∈ u.nalInfos, nal.size < 2 ^ 16
  unit_size : ∀ t, t.hasStream = true → ∀ u ∈ (m.units t).take n,
    u.writtenSize (nalPrecisionOf t) < 2 ^ 24

/-- In a reachable state every ready GoP with representable sizes is a representable
GoP. -/
theorem Reachable.representable_gop {m : V3cFileMap} (h : Reachable m) {n : Nat}
    (hrep : m.Representable n) {i : Nat} (hi : i < n) (hindex : i + 1 < 2 ^ 64)
    (hready : isGopReady i m = .ok true) :
    ∃ g, m.HasGop i g ∧ g.Representable := by
  obtain ⟨hvps, hstream⟩ := isGopReady_eq_true hindex hready
  have hunit : ∀ t, t.hasStream = true → ∃ u, (m.units t)[i]? = some u ∧
      u.Packed ∧ u.header.vuhUnitType = t.code ∧
      u ∈ (m.units t).take n ∧ u.writtenSize (nalPrecisionOf t) < 2 ^ 24 := by
    intro t ht
    obtain ⟨u, hu, _⟩ := hstream t ht
    obtain ⟨hpacked, htype⟩ := h.packed ht u (List.mem_of_getElem? hu)
    have hmem : u ∈ (m.units t).take n := by
      refine List.mem_of_getElem? (i := i) ?_
      rw [List.getElem?_take_of_lt hi, hu]
    exact ⟨u, hu, hpacked, htype, hmem, hrep.unit_size t ht u hmem⟩
  obtain ⟨ad, had, hadPacked, hadType, hadMem, hadSize⟩ := hunit .ad rfl
  obtain ⟨ovd, hovd, hovdPacked, hovdType, _, hovdSize⟩ := hunit .ovd rfl
  obtain ⟨gvd, hgvd, hgvdPacked, hgvdType, _, hgvdSize⟩ := hunit .gvd rfl
  obtain ⟨avd, havd, havdPacked, havdType, _, havdSize⟩ := hunit .avd rfl
  have hvpsUnit := List.getElem?_eq_getElem hvps
  have hvpsMem : m.vpsUnits[i] ∈ m.vpsUnits.take n := by
    refine List.mem_of_getElem? (i := i) ?_
    rw [List.getElem?_take_of_lt hi, hvpsUnit]
  obtain ⟨nal, hnals, hlive⟩ := h.vps_nal _ (List.getElem_mem hvps)
  have hnal : nal ∈ (m.vpsUnits[i]).nalInfos := by
    rw [hnals]
    exact List.mem_singleton_self nal
  refine ⟨⟨nal, ad, ovd, gvd, avd⟩, ⟨⟨_, hvpsUnit, hnals⟩, had, hovd, hgvd, havd⟩,
    ⟨⟨hlive, hrep.vps_size _ hvpsMem nal hnal, hrep.vps_header _ hvpsMem nal hnal⟩,
      ⟨hadPacked, hadType, fun _ => hrep.atlas_nal_size ad hadMem, hadSize⟩,
      ⟨hovdPacked, hovdType, (fun h => by cases h), hovdSize⟩,
      ⟨hgvdPacked, hgvdType, (fun h => by cases h), hgvdSize⟩,
      ⟨havdPacked, havdType, (fun h => by cases h), havdSize⟩⟩⟩

/-- The contents of the GoPs of one type, one GoP after the other. -/
theorem filter_contents {m : V3cFileMap} {g : Nat → Gop} {n : Nat}
    (hgop : ∀ i < n, m.HasGop i (g i)) (t : V3cUnitType) :
    (((List.range n).flatMap fun i => (g i).contents).filter (·.1 = t)).map (·.2) =
      if t = .pvd ∨ t = .cad then []
      else ((m.units t).take n).map (·.nalInfos.map NalInfo.payload) := by
  rw [List.filter_flatMap, List.map_flatMap]
  cases t with
  | vps =>
    change (List.range n).flatMap (fun i => [[(g i).vpsNal.payload]]) = _
    rw [if_neg (by decide), ← List.map_eq_flatMap]
    refine (map_take_eq fun i hi => ?_).symm
    obtain ⟨u, hu, hnals⟩ := (hgop i hi).vps
    exact ⟨u, hu, by rw [hnals]; rfl⟩
  | ad =>
    change (List.range n).flatMap (fun i => [(g i).ad.nalInfos.map NalInfo.payload]) = _
    rw [if_neg (by decide), ← List.map_eq_flatMap]
    refine (map_take_eq fun i hi => ?_).symm
    exact ⟨_, (hgop i hi).ad, rfl⟩
  | ovd =>
    change (List.range n).flatMap (fun i => [(g i).ovd.nalInfos.map NalInfo.payload]) = _
    rw [if_neg (by decide), ← List.map_eq_flatMap]
    refine (map_take_eq fun i hi => ?_).symm
    exact ⟨_, (hgop i hi).ovd, rfl⟩
  | gvd =>
    change (List.range n).flatMap (fun i => [(g i).gvd.nalInfos.map NalInfo.payload]) = _
    rw [if_neg (by decide), ← List.map_eq_flatMap]
    refine (map_take_eq fun i hi => ?_).symm
    exact ⟨_, (hgop i hi).gvd, rfl⟩
  | avd =>
    change (List.range n).flatMap (fun i => [(g i).avd.nalInfos.map NalInfo.payload]) = _
    rw [if_neg (by decide), ← List.map_eq_flatMap]
    refine (map_take_eq fun i hi => ?_).symm
    exact ⟨_, (hgop i hi).avd, rfl⟩
  | pvd | cad =>
    change (List.range n).flatMap (fun _ => []) = _
    rw [if_pos (by decide), List.flatMap_eq_nil_iff]
    exact fun _ _ => rfl

/-- A ready GoP has a unit in each of the five lists. -/
theorem lt_length_units_of_ready {m : V3cFileMap} {i : Nat} (hi : i + 1 < 2 ^ 64)
    (hready : isGopReady i m = .ok true) {t : V3cUnitType}
    (ht : t = .vps ∨ t.hasStream = true) : i < (m.units t).length := by
  have hunits := isGopReady_eq_true hi hready
  rcases ht with rfl | ht
  · exact hunits.1
  · obtain ⟨u, hu, _⟩ := hunits.2 t ht
    exact (List.getElem?_eq_some_iff.mp hu).1

/-- In a reachable state with `n` ready GoPs of representable sizes, writing these GoPs
into a buffer of the computed size and parsing the bytes written gives exactly `n` units
in each of the five lists and none elsewhere, and the slices of every unit are its
stored NAL payloads, in order. -/
theorem mmapV3cFile_reconstructGops {m : V3cFileMap} (h : Reachable m) {n : Nat}
    (hn : 1 ≤ n) (hindex : n < 2 ^ 64) (hready : ∀ i < n, isGopReady i m = .ok true)
    (hrep : m.Representable n) :
    ∃ total, gopSizes n m = .ok total ∧
      ∀ buf ptr, ptr + total ≤ buf.length → ∃ buf' m' file map,
        reconstructGops n buf ptr m = .ok (buf', ptr + total, m') ∧
        file = (buf'.drop ptr).take total ∧
        mmapV3cFile file file.length {} = .ok (true, map) ∧
        (∀ t, t = .vps ∨ t.hasStream = true → (map.units t).length = n ∧
          (map.units t).map (·.nalInfos.map (·.slice file)) =
            ((m.units t).take n).map (·.nalInfos.map NalInfo.payload)) ∧
        map.pvdUnits = [] ∧ map.cadUnits = [] := by
  have hgops : ∀ i < n, ∃ g, m.HasGop i g ∧ g.Representable := fun i hi =>
    h.representable_gop hrep hi (by omega) (hready i hi)
  choose! g hg using hgops
  have hunits : ∀ i < n, ∃ us : List (ReadableUnit 3),
      us.flatMap ReadableUnit.sized = (g i).unitsImage ∧
      us.map (fun u => (u.unitType, u.contents)) = (g i).contents := fun i hi =>
    (hg i hi).2.readable
  choose! us hus using hunits
  have hgop : ∀ i < n, m.HasGop i (g i) := fun i hi => (hg i hi).1
  have hpacked : ∀ i < n, (g i).Packed := fun i hi => (hg i hi).2.packed
  -- the bytes written, and the contents of the units they consist of
  have hfile : gopImages g n =
      64 :: ((List.range n).flatMap us).flatMap ReadableUnit.sized := by
    rw [gopImages_eq hn, List.flatMap_assoc]
    congr 1
    exact List.flatMap_congr fun i hi => (hus i (List.mem_range.mp hi)).1.symm
  have hcontents : ((List.range n).flatMap us).map (fun u => (u.unitType, u.contents)) =
      (List.range n).flatMap fun i => (g i).contents := by
    rw [List.map_flatMap]
    exact List.flatMap_congr fun i hi => (hus i (List.mem_range.mp hi)).2
  have hread : ∃ map, mmapV3cFile (gopImages g n) (gopImages g n).length {}
        = .ok (true, map) ∧
      ∀ t, (map.units t).map (·.nalInfos.map (·.slice (gopImages g n))) =
        (((List.range n).flatMap fun i => (g i).contents).filter (·.1 = t)).map (·.2) := by
    have hprecision : precisionOf 64 = 3 := rfl
    rw [hfile, ← hcontents]
    exact ReadableUnit.mmapV3cFile_contents hprecision ((List.range n).flatMap us)
  obtain ⟨map, hparse, hslices⟩ := hread
  simp only [filter_contents hgop] at hslices
  refine ⟨_, gopSizes_eq hgop hpacked, fun buf ptr hcap => ?_⟩
  obtain ⟨m', hrun, _⟩ := reconstructGops_eq hgop hpacked hcap
  refine ⟨_, m', gopImages g n, map, hrun, ?_, hparse, ?_, ?_, ?_⟩
  · exact (take_drop_overwrite buf _ (by omega)).symm
  · intro t ht
    have ht' : ¬ (t = .pvd ∨ t = .cad) := by
      rintro (rfl | rfl) <;> simp [V3cUnitType.hasStream] at ht
    have hmap := hslices t
    rw [if_neg ht'] at hmap
    refine ⟨?_, hmap⟩
    have hlen := congrArg List.length hmap
    have hlist := lt_length_units_of_ready (by omega) (hready (n - 1) (by omega)) ht
    rw [List.length_map, List.length_map, List.length_take] at hlen
    omega
  · have hmap := hslices .pvd
    rw [if_pos (Or.inl rfl)] at hmap
    exact List.map_eq_nil_iff.mp hmap
  · have hmap := hslices .cad
    rw [if_pos (Or.inr rfl)] at hmap
    exact List.map_eq_nil_iff.mp hmap

/-- One NAL unit on each stream and a VPS unit of one byte. -/
theorem mmapV3cFile_reconstructGops_one :
    ∃ m, Reachable m ∧ m.adUnits.map (·.nalInfos.map NalInfo.payload) = [[[7, 8]]] ∧
      ∃ total, gopSizes 1 m = .ok total ∧
        ∀ buf ptr, ptr + total ≤ buf.length → ∃ buf' m' file map,
          reconstructGops 1 buf ptr m = .ok (buf', ptr + total, m') ∧
          file = (buf'.drop ptr).take total ∧
          mmapV3cFile file file.length {} = .ok (true, map) ∧
          (∀ t, t = .vps ∨ t.hasStream = true → (map.units t).length = 1 ∧
            (map.units t).map (·.nalInfos.map (·.slice file)) =
              ((m.units t).take 1).map (·.nalInfos.map NalInfo.payload)) ∧
          map.pvdUnits = [] ∧ map.cadUnits = [] := by
  have hvps : NalInfo.Live { size := 1, buf := some [0] } := ⟨_, rfl, rfl⟩
  have had : copyRtpPayload (initMmap.units .ad) 1 ⟨[7, 8]⟩ = .ok _ := rfl
  have hovd : copyRtpPayload (initMmap.units .ovd) 1 ⟨[9]⟩ = .ok _ := rfl
  have hgvd : copyRtpPayload (initMmap.units .gvd) 1 ⟨[]⟩ = .ok _ := rfl
  have havd : copyRtpPayload (initMmap.units .avd) 1 ⟨[1, 2, 3]⟩ = .ok _ := rfl
  have h1 := Reachable.copy (t := .ad) .init rfl had
  have h2 := Reachable.copy (t := .ovd) h1 rfl hovd
  have h3 := Reachable.copy (t := .gvd) h2 rfl hgvd
  have h4 := Reachable.copy (t := .avd) h3 rfl havd
  have hreach := Reachable.vps h4
    (rfl : V3cUnitInfo.nalInfos { header := {}, nalInfos := [_] } = [_]) hvps
  refine ⟨_, hreach, rfl, mmapV3cFile_reconstructGops hreach (Nat.le_refl 1) (by decide)
    ?_ ⟨?_, by decide, by decide, ?_⟩⟩
  · intro i hi
    obtain rfl : i = 0 := by omega
    rfl
  · rintro u (_ | ⟨_, ⟨⟩⟩) nal (_ | ⟨_, ⟨⟩⟩)
    exact ⟨0, [], rfl, rfl⟩
  · intro t ht
    cases t with
    | ad | ovd | gvd | avd => decide
    | vps | pvd | cad => cases ht

end RtpBenchmarks.V3c
