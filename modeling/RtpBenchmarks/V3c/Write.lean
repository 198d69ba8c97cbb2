import Mathlib.Tactic.IntervalCases
import RtpBenchmarks.V3c.FileMap

set_option autoImplicit false

/-!
# V3C: the file writer (`create_v3c_unit`, `reconstruct_v3c_gop`)

The receiving side turns collected NAL units back into a V3C file.  Sizes are
computed before anything is written: the unit size from the `ptr` accumulator and
the number of NAL units, in 32-bit arithmetic, and the size of a whole GoP a
second time in 64 bits, by the same formula in `reconstruct_v3c_gop` and in
`get_gop_size`.

`unitImage` is the byte string one call of `create_v3c_unit` writes, and
`createV3cUnit_eq` says that the call writes exactly that at the cursor.
-/

namespace RtpBenchmarks.V3c

open RtpBenchmarks.Foundation

/-- `constexpr uint8_t ATLAS_NAL_SIZE_PRECISION`. -/
def ATLAS_NAL_SIZE_PRECISION : Nat := 2

/-- `constexpr uint8_t VIDEO_NAL_SIZE_PRECISION`. -/
def VIDEO_NAL_SIZE_PRECISION : Nat := 4

/-- `constexpr uint8_t V3C_SIZE_PRECISION`. -/
def V3C_SIZE_PRECISION : Nat := 3

/-! ## Size fields -/

/-- `convert_size_big_endian(in, out, output_size)`. -/
def convertSizeBigEndian (inp : UInt32) (out : List UInt8) (outputSize : Nat) :
    List UInt8 :=
  (List.range outputSize).foldl
    (fun out i => out.set (outputSize - i - 1) (inp >>> UInt32.ofNat (8 * i)).toUInt8) out

/-- The array `new uint8_t[n]` after `convert_size_big_endian(size, _, n)`. -/
def sizeArr (size : UInt32) (n : Nat) : List UInt8 :=
  convertSizeBigEndian size (List.replicate n 0) n

theorem length_foldl_set {α : Type} (f : Nat → Nat) (g : Nat → α) (is : List Nat)
    (out : List α) :
    (is.foldl (fun out i => out.set (f i) (g i)) out).length = out.length := by
  induction is generalizing out with
  | nil => rfl
  | cons i is ih => rw [List.foldl_cons, ih, List.length_set]

@[simp] theorem length_sizeArr (size : UInt32) (n : Nat) :
    (sizeArr size n).length = n := by
  rw [sizeArr, convertSizeBigEndian, length_foldl_set, List.length_replicate]

theorem toUInt8_shiftRight (size k : UInt32) {n : Nat} (hk : k.toNat = n) (hn : n < 32) :
    (size >>> k).toUInt8 = UInt8.ofNat (size.toNat / 2 ^ n) := by
  apply UInt8.toNat_inj.mp
  rw [UInt32.toNat_toUInt8, UInt32.toNat_shiftRight, hk, Nat.mod_eq_of_lt hn,
    Nat.shiftRight_eq_div_pow, UInt8.toNat_ofNat']

/-- In the widths the format has, the loop writes the big-endian bytes. -/
theorem sizeArr_eq (size : UInt32) {n : Nat} (hn : n ≤ 4) :
    sizeArr size n = bigEndian n size.toNat := by
  have h8 := toUInt8_shiftRight size 8 (n := 8) rfl (by omega)
  have h16 := toUInt8_shiftRight size 16 (n := 16) rfl (by omega)
  have h24 := toUInt8_shiftRight size 24 (n := 24) rfl (by omega)
  interval_cases n
  all_goals
    simp [sizeArr, convertSizeBigEndian, bigEndian, List.range, List.range.loop,
      List.replicate, h8, h16, h24, Nat.div_div_eq_div_mul]

/-! ## One unit -/

/-- The loop of `create_v3c_unit` over `nal_infos`: each size and payload is
written, and the payload's allocation released. -/
def writeNals (nalPrecision : Nat) :
    List NalInfo → List UInt8 → Nat → Except MemFault (List NalInfo × List UInt8 × Nat)
  | [], buf, ptr => pure ([], buf, ptr)
  | p :: rest, buf, ptr => do
    let buf ← storeBytes buf ptr (sizeArr (UInt32.ofNat p.size) nalPrecision)
    let ptr := ptr + nalPrecision
    let nal ← loadThrough p.buf p.size
    let buf ← storeBytes buf ptr nal
    let ptr := ptr + p.size
    -- `delete[] p.buf; p.buf = nullptr;`
    let (rest, buf, ptr) ← writeNals nalPrecision rest buf ptr
    pure ({ p with buf := none } :: rest, buf, ptr)

/-- `v3c_type == V3C_AD || v3c_type == V3C_CAD`. -/
def hasNalPrecisionByte (v3cType : UInt8) : Bool :=
  v3cType = V3cUnitType.ad.code || v3cType = V3cUnitType.cad.code

/-- `v3c_size_int`, in the 32-bit arithmetic of the source. -/
def v3cSizeInt (currentUnit : V3cUnitInfo) (nalPrecision : Nat) : UInt32 :=
  let v3cSizeInt := 4 + UInt32.ofNat currentUnit.ptr
    + UInt32.ofNat currentUnit.nalInfos.length * UInt32.ofNat nalPrecision
  if hasNalPrecisionByte currentUnit.header.vuhUnitType then v3cSizeInt + 1
  else v3cSizeInt

/-- The block of `create_v3c_unit` that writes the NAL size precision byte. -/
def writeNalPrecision (v3cType : UInt8) (nalPrecision : Nat) (buf : List UInt8)
    (ptr : Nat) : Except MemFault (List UInt8 × Nat) :=
  if hasNalPrecisionByte v3cType then do
    let buf ← storeBytes buf ptr [UInt8.ofNat ((nalPrecision - 1) <<< 5)]
    pure (buf, ptr + 1)
  else pure (buf, ptr)

/-- `create_v3c_unit(current_unit, buf, ptr, v3c_precision, nal_precision)`: the
unit, the buffer and the cursor afterwards. -/
def createV3cUnit (currentUnit : V3cUnitInfo) (buf : List UInt8)
    (ptr v3cPrecision nalPrecision : Nat) :
    Except MemFault (V3cUnitInfo × List UInt8 × Nat) := do
  let v3cType := currentUnit.header.vuhUnitType
  let buf ← storeBytes buf ptr
    (sizeArr (v3cSizeInt currentUnit nalPrecision) v3cPrecision)
  let ptr := ptr + v3cPrecision
  let buf ← storeBytes buf ptr (v3cHeader currentUnit.header)
  let ptr := ptr + 4
  let (buf, ptr) ← writeNalPrecision v3cType nalPrecision buf ptr
  let (nalInfos, buf, ptr) ← writeNals nalPrecision currentUnit.nalInfos buf ptr
  pure ({ currentUnit with nalInfos }, buf, ptr)

/-! ## What a unit looks like once written -/

/-- The NAL unit is there to be copied: its allocation is live and `size` bytes
long. -/
def NalInfo.Live (n : NalInfo) : Prop := ∃ bs, n.buf = some bs ∧ bs.length = n.size

/-- The bytes behind the entry's pointer. -/
def NalInfo.payload (n : NalInfo) : List UInt8 := n.buf.getD []

/-- The entry after `delete[]`. -/
def NalInfo.released (n : NalInfo) : NalInfo := { n with buf := none }

/-- The unit after its NAL units were written and released. -/
def V3cUnitInfo.released (u : V3cUnitInfo) : V3cUnitInfo :=
  { u with nalInfos := u.nalInfos.map NalInfo.released }

/-- Every NAL unit of the unit is there to be copied. -/
def V3cUnitInfo.Live (u : V3cUnitInfo) : Prop := ∀ n ∈ u.nalInfos, n.Live

theorem NalInfo.Live.length_payload {n : NalInfo} (h : n.Live) :
    n.payload.length = n.size := by
  obtain ⟨bs, hbuf, hlen⟩ := h
  simp [payload, hbuf, hlen]

theorem NalInfo.Live.loadThrough {n : NalInfo} (h : n.Live) :
    loadThrough n.buf n.size = .ok n.payload := by
  obtain ⟨bs, hbuf, hlen⟩ := h
  simp [Foundation.loadThrough, payload, hbuf, ← hlen, loadBytes]

/-- The first bytes of a NAL unit can be copied, too. -/
theorem NalInfo.Live.loadThrough_take {n : NalInfo} (h : n.Live) {k : Nat} (hk : k ≤ n.size) :
    Foundation.loadThrough n.buf k = .ok (n.payload.take k) := by
  obtain ⟨bs, hbuf, hlen⟩ := h
  simp [Foundation.loadThrough, payload, hbuf, loadBytes, hlen, hk]

/-- The bytes of the NAL units, each behind its size field. -/
def nalsImage (nalPrecision : Nat) (ns : List NalInfo) : List UInt8 :=
  ns.flatMap fun n => sizeArr (UInt32.ofNat n.size) nalPrecision ++ n.payload

/-- The NAL size precision byte of an atlas unit. -/
def precisionImage (v3cType : UInt8) (nalPrecision : Nat) : List UInt8 :=
  if hasNalPrecisionByte v3cType then [UInt8.ofNat ((nalPrecision - 1) <<< 5)] else []

/-- The bytes of a unit. -/
def unitImage (u : V3cUnitInfo) (v3cPrecision nalPrecision : Nat) : List UInt8 :=
  sizeArr (v3cSizeInt u nalPrecision) v3cPrecision ++ v3cHeader u.header ++
    precisionImage u.header.vuhUnitType nalPrecision ++ nalsImage nalPrecision u.nalInfos

theorem nalsImage_cons (q : Nat) (n : NalInfo) (ns : List NalInfo) :
    nalsImage q (n :: ns) =
      sizeArr (UInt32.ofNat n.size) q ++ n.payload ++ nalsImage q ns := by
  simp [nalsImage]

theorem length_nalsImage {q : Nat} {ns : List NalInfo} (h : ∀ n ∈ ns, n.Live) :
    (nalsImage q ns).length = (ns.map (·.size)).sum + ns.length * q := by
  induction ns with
  | nil => simp [nalsImage]
  | cons n ns ih =>
    have hn : n.payload.length = n.size := (h n List.mem_cons_self).length_payload
    have hrest := ih fun m hm => h m (List.mem_cons_of_mem n hm)
    rw [nalsImage_cons]
    simp only [List.length_append, length_sizeArr, hn, hrest, List.map_cons,
      List.sum_cons, List.length_cons, Nat.add_mul]
    omega

/-- Behind what was written from `ptr` on, the NAL loop writes the NAL units and
releases them. -/
theorem writeNals_overwrite {q : Nat} {ns : List NalInfo} (hlive : ∀ n ∈ ns, n.Live)
    (buf w : List UInt8) {ptr : Nat}
    (hcap : ptr + (w ++ nalsImage q ns).length ≤ buf.length) :
    writeNals q ns (overwrite buf ptr w) (ptr + w.length) =
      .ok (ns.map NalInfo.released, overwrite buf ptr (w ++ nalsImage q ns),
        ptr + (w ++ nalsImage q ns).length) := by
  induction ns generalizing w with
  | nil => simp [writeNals, nalsImage, pure, Except.pure]
  | cons n ns ih =>
    have hn : n.Live := hlive n List.mem_cons_self
    have himage : w ++ nalsImage q (n :: ns) =
        w ++ sizeArr (UInt32.ofNat n.size) q ++ n.payload ++ nalsImage q ns := by
      simp only [nalsImage_cons, List.append_assoc]
    rw [himage] at hcap ⊢
    have hpayload := fits_of_append hcap
    have hsize := fits_of_append hpayload
    -- the cursor behind the size field, and behind the payload
    have hptr₁ : ptr + w.length + q =
        ptr + (w ++ sizeArr (UInt32.ofNat n.size) q).length := by
      rw [List.length_append, length_sizeArr, Nat.add_assoc]
    have hptr₂ : ptr + (w ++ sizeArr (UInt32.ofNat n.size) q).length + n.size =
        ptr + (w ++ sizeArr (UInt32.ofNat n.size) q ++ n.payload).length := by
      simp only [List.length_append, hn.length_payload, Nat.add_assoc]
    have hrest := ih (fun m hm => hlive m (List.mem_cons_of_mem n hm)) _ hcap
    rw [writeNals, storeBytes_overwrite buf w _ hsize, ok_bind, hn.loadThrough, ok_bind]
    dsimp only
    rw [hptr₁, storeBytes_overwrite buf _ _ hpayload, ok_bind, hptr₂, hrest]
    rfl

theorem writeNalPrecision_overwrite (v3cType : UInt8) (q : Nat) (buf w : List UInt8)
    {ptr : Nat} (hcap : ptr + (w ++ precisionImage v3cType q).length ≤ buf.length) :
    writeNalPrecision v3cType q (overwrite buf ptr w) (ptr + w.length) =
      .ok (overwrite buf ptr (w ++ precisionImage v3cType q),
        ptr + (w ++ precisionImage v3cType q).length) := by
  unfold writeNalPrecision precisionImage at *
  split_ifs at * with h
  · rw [storeBytes_overwrite buf w _ hcap, List.length_append, ← Nat.add_assoc]
    rfl
  · simp [pure, Except.pure]

/-- `create_v3c_unit` writes the unit at the cursor, advances the cursor by its
length, and releases its NAL units. -/
theorem createV3cUnit_eq {u : V3cUnitInfo} (hlive : u.Live) {buf : List UInt8}
    {ptr p q : Nat} (hcap : ptr + (unitImage u p q).length ≤ buf.length) :
    createV3cUnit u buf ptr p q =
      .ok (u.released, overwrite buf ptr (unitImage u p q),
        ptr + (unitImage u p q).length) := by
  simp only [unitImage] at hcap ⊢
  generalize hw₁ : sizeArr (v3cSizeInt u q) p = w₁ at hcap ⊢
  generalize hw₂ : w₁ ++ v3cHeader u.header = w₂ at hcap ⊢
  generalize hw₃ : w₂ ++ precisionImage u.header.vuhUnitType q = w₃ at hcap ⊢
  have hlen₁ : w₁.length = p := by rw [← hw₁, length_sizeArr]
  have hlen₂ : w₂.length = p + 4 := by rw [← hw₂, List.length_append, hlen₁, length_v3cHeader]
  have hcap₃ := fits_of_append hcap
  have hcap₂ := fits_of_append (hw₃ ▸ hcap₃)
  -- the four writes, each at the end of the one before
  have hsize : storeBytes buf ptr w₁ = .ok (overwrite buf ptr w₁) :=
    storeBytes_of_le (by omega)
  have hheader : storeBytes (overwrite buf ptr w₁) (ptr + p) (v3cHeader u.header) =
      .ok (overwrite buf ptr w₂) := by
    rw [← hlen₁, storeBytes_overwrite buf w₁ _ (hw₂ ▸ hcap₂), hw₂]
  have hprecision := writeNalPrecision_overwrite u.header.vuhUnitType q buf w₂ (hw₃ ▸ hcap₃)
  have hnals := writeNals_overwrite hlive buf w₃ hcap
  rw [hw₃, hlen₂, ← Nat.add_assoc] at hprecision
  unfold createV3cUnit
  rw [hw₁, hsize, ok_bind]
  dsimp only
  rw [hheader, ok_bind, hprecision, ok_bind]
  dsimp only
  rw [hnals]
  rfl

/-! ## A whole GoP -/

/-- `get_gop_size(hdr_byte, index, mmap)`. -/
def getGopSize (hdrByte : Bool) (index : Nat) (mmap : V3cFileMap) :
    Except MemFault Nat := do
  let gopSize := if hdrByte then 1 else 0
  let vps ← elementAt mmap.vpsUnits index
  let vpsNal ← elementAt vps.nalInfos 0
  let ad ← elementAt mmap.adUnits index
  let ovd ← elementAt mmap.ovdUnits index
  let gvd ← elementAt mmap.gvdUnits index
  let avd ← elementAt mmap.avdUnits index
  let vpsSize := V3C_SIZE_PRECISION + vpsNal.size
  let adSize := V3C_SIZE_PRECISION + 4 + 1 + ad.ptr
    + ad.nalInfos.length * ATLAS_NAL_SIZE_PRECISION
  let ovdSize := V3C_SIZE_PRECISION + 4 + ovd.ptr
    + ovd.nalInfos.length * VIDEO_NAL_SIZE_PRECISION
  let gvdSize := V3C_SIZE_PRECISION + 4 + gvd.ptr
    + gvd.nalInfos.length * VIDEO_NAL_SIZE_PRECISION
  let avdSize := V3C_SIZE_PRECISION + 4 + avd.ptr
    + avd.nalInfos.length * VIDEO_NAL_SIZE_PRECISION
  pure (gopSize + (vpsSize + adSize + ovdSize + gvdSize + avdSize))

/-- What `reconstruct_v3c_gop` returns and leaves behind. -/
structure GopWritten where
  gopSize : Nat
  buf : List UInt8
  ptr : Nat
  mmap : V3cFileMap
  deriving DecidableEq, Repr, Inhabited

/-- The two lines `current_unit = mmap.<t>_units.at(index); create_v3c_unit(...)`.
`current_unit` is a copy, but its pointers alias those of the map: once the copy
has released its NAL units, the map's are dangling too. -/
def createUnitOf (t : V3cUnitType) (nalPrecision : Nat) (buf : List UInt8) (ptr : Nat)
    (mmap : V3cFileMap) (index : Nat) :
    Except MemFault (List UInt8 × Nat × V3cFileMap) := do
  let currentUnit ← elementAt (mmap.units t) index
  let (currentUnit, buf, ptr) ←
    createV3cUnit currentUnit buf ptr V3C_SIZE_PRECISION nalPrecision
  pure (buf, ptr, mmap.setUnits ((mmap.units t).set index currentUnit) t)

/-- The block of `reconstruct_v3c_gop` that writes the sample stream header. -/
def writeStreamHeader (hdrByte : Bool) (buf : List UInt8) (ptr : Nat) :
    Except MemFault (List UInt8 × Nat) :=
  if hdrByte then do
    let buf ← storeBytes buf ptr [64]
    pure (buf, ptr + 1)
  else pure (buf, ptr)

/-- `reconstruct_v3c_gop(hdr_byte, buf, ptr, mmap, index)`. -/
def reconstructV3cGop (hdrByte : Bool) (buf : List UInt8) (ptr : Nat)
    (mmap : V3cFileMap) (index : Nat) : Except MemFault GopWritten := do
  let gopSize := if hdrByte then 1 else 0
  let vps ← elementAt mmap.vpsUnits index
  let vpsNal ← elementAt vps.nalInfos 0
  let ad ← elementAt mmap.adUnits index
  let ovd ← elementAt mmap.ovdUnits index
  let gvd ← elementAt mmap.gvdUnits index
  let avd ← elementAt mmap.avdUnits index
  let vpsSize := V3C_SIZE_PRECISION + vpsNal.size
  let adSize := V3C_SIZE_PRECISION + 4 + 1 + ad.ptr
    + ad.nalInfos.length * ATLAS_NAL_SIZE_PRECISION
  let ovdSize := V3C_SIZE_PRECISION + 4 + ovd.ptr
    + ovd.nalInfos.length * VIDEO_NAL_SIZE_PRECISION
  let gvdSize := V3C_SIZE_PRECISION + 4 + gvd.ptr
    + gvd.nalInfos.length * VIDEO_NAL_SIZE_PRECISION
  let avdSize := V3C_SIZE_PRECISION + 4 + avd.ptr
    + avd.nalInfos.length * VIDEO_NAL_SIZE_PRECISION
  let gopSize := gopSize + (vpsSize + adSize + ovdSize + gvdSize + avdSize)
  let (buf, ptr) ← writeStreamHeader hdrByte buf ptr
  -- the VPS unit is written from its one NAL unit, header included
  let v3cSizeInt := UInt32.ofNat vpsNal.size
  let buf ← storeBytes buf ptr (sizeArr v3cSizeInt V3C_SIZE_PRECISION)
  let ptr := ptr + V3C_SIZE_PRECISION
  let back ← lastElement vps.nalInfos
  let payload ← loadThrough back.buf v3cSizeInt.toNat
  let buf ← storeBytes buf ptr payload
  let ptr := ptr + v3cSizeInt.toNat
  let (buf, ptr, mmap) ← createUnitOf .ad ATLAS_NAL_SIZE_PRECISION buf ptr mmap index
  let (buf, ptr, mmap) ← createUnitOf .ovd VIDEO_NAL_SIZE_PRECISION buf ptr mmap index
  let (buf, ptr, mmap) ← createUnitOf .gvd VIDEO_NAL_SIZE_PRECISION buf ptr mmap index
  let (buf, ptr, mmap) ← createUnitOf .avd VIDEO_NAL_SIZE_PRECISION buf ptr mmap index
  pure ⟨gopSize, buf, ptr, mmap⟩

/-- The test `units.size() < index+1 || !units.at(index).ready`.  `index + 1` is 64-bit
arithmetic, and `at` is reached only when the size test fails. -/
def notReady (units : List V3cUnitInfo) (index : Nat) : Except MemFault Bool :=
  if units.length < (index + 1) % 2 ^ 64 then pure true
  else do
    let unit ← elementAt units index
    pure (!unit.ready)

/-- `is_gop_ready(index, mmap)`. -/
def isGopReady (index : Nat) (mmap : V3cFileMap) : Except MemFault Bool :=
  if mmap.vpsUnits.length < (index + 1) % 2 ^ 64 then pure false
  else do
    if ← notReady mmap.adUnits index then return false
    if ← notReady mmap.ovdUnits index then return false
    if ← notReady mmap.gvdUnits index then return false
    if ← notReady mmap.avdUnits index then return false
    pure true

theorem notReady_eq_false_iff {units : List V3cUnitInfo} {index : Nat} :
    notReady units index = .ok false ↔
      ∃ unit, units[index]? = some unit ∧ unit.ready = true := by
  unfold notReady
  constructor
  · intro h
    split_ifs at h
    · cases h
    · obtain ⟨unit, hunit, hready⟩ := bind_eq_ok_iff.mp h
      have hready' : (!unit.ready) = false := Except.ok.inj hready
      exact ⟨unit, elementAt_eq_ok_iff.mp hunit, by simpa using hready'⟩
  · rintro ⟨unit, hunit, hready⟩
    have hlen := (List.getElem?_eq_some_iff.mp hunit).1
    have hmod := Nat.mod_le (index + 1) (2 ^ 64)
    rw [if_neg (by omega), elementAt_eq_ok_iff.mpr hunit, ok_bind, hready]
    rfl

/-- A test that returns `false`. -/
theorem guard_eq_true_iff {test rest : Except MemFault Bool} :
    (test >>= fun b => if b then pure false else rest) = .ok true ↔
      test = .ok false ∧ rest = .ok true := by
  cases test with
  | error e => exact ⟨fun h => (by cases h), fun h => (by cases h.1)⟩
  | ok b =>
    cases b with
    | false => exact ⟨fun h => ⟨rfl, h⟩, fun h => h.2⟩
    | true => exact ⟨fun h => (by cases h), fun h => (by cases h.1)⟩

/-- When a GoP is ready: all five units are there, and those of the streams are ready. -/
theorem isGopReady_eq_true_iff {index : Nat} {mmap : V3cFileMap} :
    isGopReady index mmap = .ok true ↔ ¬ mmap.vpsUnits.length < (index + 1) % 2 ^ 64 ∧
      ∀ t, t.hasStream = true →
        ∃ unit, (mmap.units t)[index]? = some unit ∧ unit.ready = true := by
  unfold isGopReady
  by_cases hvps : mmap.vpsUnits.length < (index + 1) % 2 ^ 64
  · rw [if_pos hvps]
    exact iff_of_false (fun h => (by cases h)) fun h => h.1 hvps
  · rw [if_neg hvps, guard_eq_true_iff, guard_eq_true_iff, guard_eq_true_iff, guard_eq_true_iff]
    simp only [notReady_eq_false_iff]
    constructor
    · rintro ⟨had, hovd, hgvd, havd, -⟩
      refine ⟨hvps, fun t ht => ?_⟩
      cases t with
      | ad => exact had
      | ovd => exact hovd
      | gvd => exact hgvd
      | avd => exact havd
      | vps | pvd | cad => cases ht
    · rintro ⟨-, h⟩
      exact ⟨h .ad rfl, h .ovd rfl, h .gvd rfl, h .avd rfl, rfl⟩

theorem isGopReady_eq_true {index : Nat} {mmap : V3cFileMap} (hindex : index + 1 < 2 ^ 64)
    (h : isGopReady index mmap = .ok true) :
    index < mmap.vpsUnits.length ∧
      ∀ t, t.hasStream = true →
        ∃ unit, (mmap.units t)[index]? = some unit ∧ unit.ready = true := by
  obtain ⟨hvps, hstreams⟩ := isGopReady_eq_true_iff.mp h
  rw [Nat.mod_eq_of_lt hindex] at hvps
  exact ⟨Nat.not_lt.mp hvps, hstreams⟩

end RtpBenchmarks.V3c
