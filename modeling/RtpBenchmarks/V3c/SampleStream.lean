import RtpBenchmarks.V3c.Parse

set_option autoImplicit false

/-!
# V3C: sample streams, and what parsing one yields

The format itself, independently of any code: a sample stream is a precision
byte followed by units, each behind a size field; an atlas or video unit is a
NAL sample stream of the same shape.  A value of `SampleStream` cannot be
ill-formed: its fields say that every declared precision is supported and every
length fits its size field.

`layout` states where a reader must find each unit and each NAL unit, and
`mmapV3cFile_sampleStream` that `mmap_v3c_file` finds them there.  The proof
follows the format: one lemma for a NAL sample stream, one for a unit behind an
arbitrary prefix of the file, and an induction over the units.
-/

namespace RtpBenchmarks.V3c

open RtpBenchmarks.Foundation

/-! ## The format -/

/-- What follows the four header bytes of a unit. -/
inductive SampleBody where
  | parameterSet (payload : List UInt8)
  | atlas (precisionByte : UInt8) (nals : List (List UInt8))
  | video (nals : List (List UInt8))
  deriving DecidableEq, Repr

namespace SampleBody

/-- The kind of payload each unit type has. -/
def Fits : SampleBody → V3cUnitType → Prop
  | .parameterSet _, t => t = .vps
  | .atlas _ _, t => t = .ad ∨ t = .cad
  | .video _, t => t = .ovd ∨ t = .gvd ∨ t = .avd ∨ t = .pvd

/-- The NAL units of the payload. -/
def nals : SampleBody → List (List UInt8)
  | .parameterSet _ => []
  | .atlas _ ns => ns
  | .video ns => ns

/-- The width of the NAL size fields. -/
def nalPrecision : SampleBody → Nat
  | .parameterSet _ => 4
  | .atlas b _ => precisionOf b
  | .video _ => 4

/-- A NAL sample stream. -/
def nalStream (q : Nat) (ns : List (List UInt8)) : List UInt8 :=
  ns.flatMap fun nal => bigEndian q nal.length ++ nal

/-- The payload bytes. -/
def bytes : SampleBody → List UInt8
  | .parameterSet payload => payload
  | .atlas b ns => b :: nalStream (precisionOf b) ns
  | .video ns => nalStream 4 ns

end SampleBody

/-- A unit that fits a `p`-byte size field.  Only the type bits of the header are
constrained; the remaining 27 bits are arbitrary. -/
structure SampleUnit (p : Nat) where
  unitType : V3cUnitType
  b0 : UInt8
  b1 : UInt8
  b2 : UInt8
  b3 : UInt8
  body : SampleBody
  type_eq : (b0 &&& 0b11111000) >>> 3 = unitType.code
  body_fits : body.Fits unitType
  precision_ok : 2 ≤ body.nalPrecision ∧ body.nalPrecision ≤ 4
  nal_size : ∀ nal ∈ body.nals, nal.length < 256 ^ body.nalPrecision
  unit_size : 4 + body.bytes.length < 256 ^ p

namespace SampleUnit

variable {p : Nat}

/-- The unit without its size field. -/
def bytes (u : SampleUnit p) : List UInt8 :=
  u.b0 :: u.b1 :: u.b2 :: u.b3 :: u.body.bytes

/-- The unit behind its size field. -/
def sized (u : SampleUnit p) : List UInt8 :=
  bigEndian p u.bytes.length ++ u.bytes

@[simp] theorem length_bytes (u : SampleUnit p) :
    u.bytes.length = 4 + u.body.bytes.length := by
  simp [bytes]
  omega

@[simp] theorem length_sized (u : SampleUnit p) :
    u.sized.length = p + u.bytes.length := by
  simp [sized]

end SampleUnit

/-- A V3C sample stream. -/
structure SampleStream where
  firstByte : UInt8
  precision_ok : precisionOf firstByte = 2 ∨ precisionOf firstByte = 3
  units : List (SampleUnit (precisionOf firstByte))

/-- The bytes of the file. -/
def SampleStream.bytes (s : SampleStream) : List UInt8 :=
  s.firstByte :: s.units.flatMap SampleUnit.sized

/-! ## Where everything is -/

/-- The header a reader must see in four header bytes. -/
def headerOf (b0 b1 b2 b3 : UInt8) : V3cUnitHeader :=
  match parseV3cHeader {} [b0, b1, b2, b3] 0 with
  | .ok h => h
  | .error _ => {}

/-- The (offset, length) pairs of the NAL units of a NAL sample stream that
starts at `off`. -/
def nalSpans (q : Nat) : Nat → List (List UInt8) → List NalInfo
  | _, [] => []
  | off, nal :: rest =>
      { location := off + q, size := nal.length } ::
        nalSpans q (off + q + nal.length) rest

/-- The entry of a unit whose first header byte is at `start`. -/
def SampleUnit.info {p : Nat} (u : SampleUnit p) (start : Nat) : V3cUnitInfo where
  header := headerOf u.b0 u.b1 u.b2 u.b3
  nalInfos :=
    match u.body with
    | .parameterSet _ => [{ location := start, size := u.bytes.length }]
    | .atlas b ns => nalSpans (precisionOf b) (start + 4 + 1) ns
    | .video ns => nalSpans 4 (start + 4) ns

/-- Type and entry of every unit of a list whose first size field is at `off`, in
file order. -/
def unitSpans {p : Nat} : Nat → List (SampleUnit p) → List (V3cUnitType × V3cUnitInfo)
  | _, [] => []
  | off, u :: rest =>
      (u.unitType, u.info (off + p)) :: unitSpans (off + u.sized.length) rest

/-- Type and entry of every unit of the file, in file order. -/
def SampleStream.layout (s : SampleStream) : List (V3cUnitType × V3cUnitInfo) :=
  unitSpans 1 s.units

/-- The bytes an entry denotes. -/
def NalInfo.slice (n : NalInfo) (cbuf : List UInt8) : List UInt8 :=
  (cbuf.drop n.location).take n.size

/-! ## Headers behind a prefix -/

/-- A header with all four bytes present parses to `headerOf`, wherever it is. -/
theorem parseV3cHeader_append (pre post : List UInt8) (b0 b1 b2 b3 : UInt8) :
    parseV3cHeader {} (pre ++ b0 :: b1 :: b2 :: b3 :: post) pre.length =
      .ok (headerOf b0 b1 b2 b3) := by
  have h0 : loadByte (pre ++ b0 :: b1 :: b2 :: b3 :: post) pre.length = .ok b0 := by
    simp [loadByte]
  have h1 : loadByte (pre ++ b0 :: b1 :: b2 :: b3 :: post) (pre.length + 1)
      = .ok b1 := by
    simp [loadByte]
  have h2 : loadByte (pre ++ b0 :: b1 :: b2 :: b3 :: post) (pre.length + 2)
      = .ok b2 := by
    simp [loadByte]
  have h3 : loadByte (pre ++ b0 :: b1 :: b2 :: b3 :: post) (pre.length + 3)
      = .ok b3 := by
    simp [loadByte]
  have e0 : loadByte [b0, b1, b2, b3] 0 = .ok b0 := rfl
  have e1 : loadByte [b0, b1, b2, b3] (0 + 1) = .ok b1 := rfl
  have e2 : loadByte [b0, b1, b2, b3] (0 + 2) = .ok b2 := rfl
  have e3 : loadByte [b0, b1, b2, b3] (0 + 3) = .ok b3 := rfl
  unfold headerOf parseV3cHeader
  simp only [h0, h1, h2, h3, e0, e1, e2, e3, ok_bind]
  cases V3cUnitType.ofCode ((b0 &&& 0b11111000) >>> 3) with
  | none => rfl
  | some t => cases t <;> rfl

theorem headerOf_vuhUnitType (b0 b1 b2 b3 : UInt8) :
    (headerOf b0 b1 b2 b3).vuhUnitType = (b0 &&& 0b11111000) >>> 3 := by
  have e0 : loadByte [b0, b1, b2, b3] 0 = .ok b0 := rfl
  have e1 : loadByte [b0, b1, b2, b3] (0 + 1) = .ok b1 := rfl
  have e2 : loadByte [b0, b1, b2, b3] (0 + 2) = .ok b2 := rfl
  have e3 : loadByte [b0, b1, b2, b3] (0 + 3) = .ok b3 := rfl
  unfold headerOf parseV3cHeader
  simp only [e0, e1, e2, e3, ok_bind]
  cases V3cUnitType.ofCode ((b0 &&& 0b11111000) >>> 3) with
  | none => rfl
  | some t => cases t <;> rfl

theorem SampleUnit.ofCode_header {p : Nat} (u : SampleUnit p) :
    V3cUnitType.ofCode (headerOf u.b0 u.b1 u.b2 u.b3).vuhUnitType = some u.unitType := by
  rw [headerOf_vuhUnitType, u.type_eq, V3cUnitType.ofCode_code]

/-! ## NAL sample streams -/

theorem nalStream_cons (q : Nat) (nal : List UInt8) (ns : List (List UInt8)) :
    SampleBody.nalStream q (nal :: ns) =
      bigEndian q nal.length ++ (nal ++ SampleBody.nalStream q ns) := by
  simp [SampleBody.nalStream]

/-- The inner loop on a well-formed NAL sample stream behind an arbitrary prefix. -/
theorem nalLoop_nalStream {q : Nat} (hq : q = 2 ∨ q = 3 ∨ q = 4)
    (ns : List (List UInt8)) (hns : ∀ nal ∈ ns, nal.length < 256 ^ q)
    (pre post : List UInt8) (acc : List NalInfo) :
    nalLoop (pre ++ (SampleBody.nalStream q ns ++ post)) q
        (pre.length + (SampleBody.nalStream q ns).length) pre.length acc =
      .ok (acc ++ nalSpans q pre.length ns) := by
  induction ns generalizing pre acc with
  | nil =>
    rw [nalLoop, if_pos (by simp [SampleBody.nalStream])]
    simp [nalSpans]
  | cons nal ns ih =>
    have hnal : nal.length < 256 ^ q := hns nal List.mem_cons_self
    have hlen : (SampleBody.nalStream q (nal :: ns)).length
        = q + nal.length + (SampleBody.nalStream q ns).length := by
      rw [nalStream_cons]
      simp
      omega
    have hsize : readNalSize
        (pre ++ (SampleBody.nalStream q (nal :: ns) ++ post)) q pre.length
        = .ok nal.length := by
      rw [readNalSize_eq, if_pos hq, if_neg (by simp [hlen]; omega),
        nalStream_cons, List.append_assoc, bigEndianAt_append pre _ hnal]
    have hpre : (pre ++ bigEndian q nal.length ++ nal).length
        = pre.length + q + nal.length := by
      simp [Nat.add_assoc]
    have hrest := ih (fun n hn => hns n (List.mem_cons_of_mem nal hn))
      (pre ++ bigEndian q nal.length ++ nal)
      (acc ++ [{ location := pre.length + q, size := nal.length }])
    have hmem : pre ++ (SampleBody.nalStream q (nal :: ns) ++ post)
        = pre ++ bigEndian q nal.length ++ nal
          ++ (SampleBody.nalStream q ns ++ post) := by
      rw [nalStream_cons]
      simp [List.append_assoc]
    rw [nalLoop, if_neg (by omega)]
    split
    · rename_i e he
      rw [hsize] at he
      cases he
    · rename_i n hn
      rw [hsize] at hn
      cases hn
      rw [hpre] at hrest
      rw [hmem, hlen, show pre.length + (q + nal.length
        + (SampleBody.nalStream q ns).length) = pre.length + q + nal.length
        + (SampleBody.nalStream q ns).length by omega, hrest]
      simp [nalSpans]

/-- The entries of a NAL sample stream denote its NAL units. -/
theorem map_slice_nalSpans (q : Nat) (ns : List (List UInt8)) (pre post : List UInt8) :
    (nalSpans q pre.length ns).map
        (·.slice (pre ++ (SampleBody.nalStream q ns ++ post))) = ns := by
  induction ns generalizing pre with
  | nil => rfl
  | cons nal ns ih =>
    have hmem : pre ++ (SampleBody.nalStream q (nal :: ns) ++ post)
        = pre ++ bigEndian q nal.length ++ nal
          ++ (SampleBody.nalStream q ns ++ post) := by
      rw [nalStream_cons]
      simp [List.append_assoc]
    have hrest := ih (pre ++ bigEndian q nal.length ++ nal)
    have hpre : (pre ++ bigEndian q nal.length ++ nal).length
        = pre.length + q + nal.length := by
      simp [Nat.add_assoc]
    rw [hpre] at hrest
    rw [nalSpans, List.map_cons, hmem, hrest]
    congr 1
    rw [NalInfo.slice, List.append_assoc _ nal,
      List.drop_left' (by simp : (pre ++ bigEndian q nal.length).length = _),
      List.take_left' rfl]

/-! ## Units -/

/-- The inner loop on a unit that consists of a header and a NAL sample stream. -/
theorem nalLoop_behind {q : Nat} (hq : q = 2 ∨ q = 3 ∨ q = 4) {ns : List (List UInt8)}
    (hns : ∀ nal ∈ ns, nal.length < 256 ^ q) {unit : List UInt8}
    (hdr : List UInt8) (h : unit = hdr ++ SampleBody.nalStream q ns) (pre post : List UInt8) :
    nalLoop (pre ++ (unit ++ post)) q (pre.length + unit.length) (pre.length + hdr.length) [] =
      .ok (nalSpans q (pre.length + hdr.length) ns) := by
  have hloop := nalLoop_nalStream hq ns hns (pre ++ hdr) post []
  simp only [List.length_append, List.append_assoc, List.nil_append] at hloop
  rw [h]
  simp only [List.length_append, List.append_assoc, ← Nat.add_assoc]
  exact hloop

/-- The payload loops of the parser on a well-formed unit whose header is behind
an arbitrary prefix. -/
theorem unitNals_unit {p : Nat} (u : SampleUnit p) (pre post : List UInt8) :
    unitNals (pre ++ (u.bytes ++ post)) (some u.unitType) pre.length u.bytes.length =
      .ok (u.info pre.length).nalInfos := by
  have hfits := u.body_fits
  have hprec := u.precision_ok
  have hnals := u.nal_size
  have hbytes : u.bytes = u.b0 :: u.b1 :: u.b2 :: u.b3 :: u.body.bytes := rfl
  unfold SampleUnit.info
  cases hb : u.body with
  | parameterSet payload =>
    rw [hb] at hfits
    have ht : u.unitType = .vps := hfits
    rw [ht]
    rfl
  | atlas b ns =>
    rw [hb] at hfits hprec hnals hbytes
    have hload : loadByte (pre ++ (u.bytes ++ post)) (pre.length + V3C_HDR_LEN) = .ok b := by
      have h := loadByte_append (pre ++ [u.b0, u.b1, u.b2, u.b3])
        (SampleBody.nalStream (precisionOf b) ns ++ post) b
      rw [List.length_append, List.append_assoc] at h
      rw [hbytes]
      exact h
    have hq : precisionOf b = 2 ∨ precisionOf b = 3 ∨ precisionOf b = 4 := by
      simp only [SampleBody.nalPrecision] at hprec
      omega
    have hloop := nalLoop_behind hq hnals [u.b0, u.b1, u.b2, u.b3, b] hbytes pre post
    have hcase : unitNals (pre ++ (u.bytes ++ post)) (some u.unitType) pre.length
        u.bytes.length = (do
          let v3cuFirstByte ← access (loadByte (pre ++ (u.bytes ++ post))
            (pre.length + V3C_HDR_LEN))
          nalLoop (pre ++ (u.bytes ++ post)) (precisionOf v3cuFirstByte)
            (pre.length + u.bytes.length) (pre.length + V3C_HDR_LEN + 1) []) := by
      rcases hfits with ht | ht <;> rw [ht] <;> rfl
    rw [hcase, hload, access_ok, ok_bind]
    exact hloop
  | video ns =>
    rw [hb] at hfits hnals hbytes
    have hloop := nalLoop_behind (Or.inr (Or.inr rfl)) hnals [u.b0, u.b1, u.b2, u.b3] hbytes
      pre post
    have hcase : unitNals (pre ++ (u.bytes ++ post)) (some u.unitType) pre.length
        u.bytes.length = nalLoop (pre ++ (u.bytes ++ post)) 4
          (pre.length + u.bytes.length) (pre.length + V3C_HDR_LEN) [] := by
      rcases hfits with ht | ht | ht | ht <;> rw [ht] <;> rfl
    rw [hcase]
    exact hloop

/-- One iteration of the outer loop on a well-formed unit behind an arbitrary
prefix. -/
theorem scanUnit_sized {p : Nat} (hp : p = 2 ∨ p = 3) (u : SampleUnit p)
    (pre post : List UInt8) :
    scanUnit (pre ++ (u.sized ++ post)) p pre.length =
      .ok ⟨pre.length + p, u.bytes.length, u.info (pre.length + p)⟩ := by
  have hpre : (pre ++ bigEndian p u.bytes.length).length = pre.length + p := by
    simp
  have hmem : pre ++ (u.sized ++ post)
      = pre ++ bigEndian p u.bytes.length ++ (u.bytes ++ post) := by
    simp [SampleUnit.sized, List.append_assoc]
  have hsize : u.bytes.length < 256 ^ p := by
    rw [u.length_bytes]
    exact u.unit_size
  refine scanUnit_eq_ok_iff.mpr ⟨u.bytes.length, headerOf u.b0 u.b1 u.b2 u.b3,
    (u.info (pre.length + p)).nalInfos, ?_, ?_, ?_, rfl⟩
  · rw [readUnitSize_eq, if_neg (by simp; omega), if_pos hp, SampleUnit.sized,
      List.append_assoc, bigEndianAt_append pre _ hsize]
  · rw [hmem, ← hpre]
    exact parseV3cHeader_append _ _ _ _ _ _
  · rw [u.ofCode_header, hmem, ← hpre]
    exact unitNals_unit u _ post

/-- The entry a unit gets carries the unit's type. -/
theorem SampleUnit.ofCode_info {p : Nat} (u : SampleUnit p) (start : Nat) :
    V3cUnitType.ofCode (u.info start).header.vuhUnitType = some u.unitType :=
  u.ofCode_header

/-- The byte strings the entries of a unit stand for: the whole unit for a
parameter set, the NAL units otherwise. -/
def SampleUnit.contents {p : Nat} (u : SampleUnit p) : List (List UInt8) :=
  match u.body with
  | .parameterSet _ => [u.bytes]
  | .atlas _ ns => ns
  | .video ns => ns

theorem map_slice_info {p : Nat} (u : SampleUnit p) (pre post : List UInt8) :
    (u.info pre.length).nalInfos.map (·.slice (pre ++ (u.bytes ++ post))) =
      u.contents := by
  have hbytes : u.bytes = u.b0 :: u.b1 :: u.b2 :: u.b3 :: u.body.bytes := rfl
  unfold SampleUnit.info SampleUnit.contents
  cases hb : u.body with
  | parameterSet payload =>
    simp [NalInfo.slice]
  | atlas b ns =>
    rw [hb] at hbytes
    have hspans := map_slice_nalSpans (precisionOf b) ns
      (pre ++ [u.b0, u.b1, u.b2, u.b3, b]) post
    have hmem : pre ++ (u.bytes ++ post) = pre ++ [u.b0, u.b1, u.b2, u.b3, b] ++
        (SampleBody.nalStream (precisionOf b) ns ++ post) := by
      rw [hbytes]
      simp [SampleBody.bytes]
    rw [← hmem] at hspans
    simpa using hspans
  | video ns =>
    rw [hb] at hbytes
    have hspans := map_slice_nalSpans 4 ns (pre ++ [u.b0, u.b1, u.b2, u.b3]) post
    have hmem : pre ++ (u.bytes ++ post) = pre ++ [u.b0, u.b1, u.b2, u.b3] ++
        (SampleBody.nalStream 4 ns ++ post) := by
      rw [hbytes]
      simp [SampleBody.bytes]
    rw [← hmem] at hspans
    simpa using hspans

/-! ## Streams of readable units -/

/-- A byte string the outer loop reads as one unit wherever it stands: what follows
needs no more of a unit than this. -/
structure ReadableUnit (p : Nat) where
  unitType : V3cUnitType
  bytes : List UInt8
  info : Nat → V3cUnitInfo
  contents : List (List UInt8)
  scan_eq : ∀ pre post : List UInt8,
    scanUnit (pre ++ (bigEndian p bytes.length ++ bytes ++ post)) p pre.length =
      .ok ⟨pre.length + p, bytes.length, info (pre.length + p)⟩
  type_eq : ∀ start, V3cUnitType.ofCode (info start).header.vuhUnitType = some unitType
  slices_eq : ∀ pre post : List UInt8,
    (info pre.length).nalInfos.map (·.slice (pre ++ (bytes ++ post))) = contents

/-- A well-formed unit is readable. -/
def SampleUnit.readable {p : Nat} (hp : p = 2 ∨ p = 3) (u : SampleUnit p) :
    ReadableUnit p where
  unitType := u.unitType
  bytes := u.bytes
  info := u.info
  contents := u.contents
  scan_eq := scanUnit_sized hp u
  type_eq := u.ofCode_info
  slices_eq := map_slice_info u

namespace ReadableUnit

variable {p : Nat}

/-- The unit behind its size field. -/
def sized (u : ReadableUnit p) : List UInt8 := bigEndian p u.bytes.length ++ u.bytes

@[simp] theorem length_sized (u : ReadableUnit p) :
    u.sized.length = p + u.bytes.length := by
  simp [sized]

/-- Type and entry of every unit of a list whose first size field is at `off`. -/
def spans : Nat → List (ReadableUnit p) → List (V3cUnitType × V3cUnitInfo)
  | _, [] => []
  | off, u :: rest => (u.unitType, u.info (off + p)) :: spans (off + u.sized.length) rest

/-- The outer loop on a list of readable units up to the end of the file. -/
theorem mmapLoop_eq (us : List (ReadableUnit p)) (pre : List UInt8) (m : V3cFileMap) :
    mmapLoop (pre ++ us.flatMap sized) (pre ++ us.flatMap sized).length p pre.length m =
      .ok (true, ((spans pre.length us).map (·.2)).foldl V3cFileMap.pushUnit m) := by
  induction us generalizing pre m with
  | nil =>
    rw [mmapLoop, if_pos (by simp)]
    rfl
  | cons u us ih =>
    have hscan := u.scan_eq pre (us.flatMap sized)
    change scanUnit (pre ++ (u.sized ++ _)) p _ = _ at hscan
    have hmem : pre ++ (u :: us).flatMap sized = pre ++ u.sized ++ us.flatMap sized := by
      simp [List.append_assoc]
    have hpre : (pre ++ u.sized).length = pre.length + u.sized.length := by
      simp
    have hpos : pre.length < (pre ++ (u :: us).flatMap sized).length := by
      have hadv := scanUnit_advances hscan
      dsimp only at hadv
      rw [hmem]
      simp only [List.length_append, length_sized]
      omega
    have hrest := ih (pre ++ u.sized) (m.pushUnit (u.info (pre.length + p)))
    rw [hpre, u.length_sized] at hrest
    rw [← List.append_assoc, ← hmem] at hscan
    rw [← hmem] at hrest
    rw [mmapLoop, if_neg (Nat.not_le.mpr hpos)]
    split
    · rename_i f hf
      rw [hscan] at hf
      cases hf
    · rename_i hf
      rw [hscan] at hf
      cases hf
    · rename_i u' hu'
      rw [hscan] at hu'
      cases hu'
      rw [show pre.length + p + u.bytes.length = pre.length + (p + u.bytes.length) by
        omega, hrest, spans, u.length_sized]
      rfl

/-- Distributing the parsed entries over the seven lists is filtering them by
type. -/
theorem filter_spans (us : List (ReadableUnit p)) (off : Nat) (t : V3cUnitType) :
    ((spans off us).map (·.2)).filter
        (fun i => V3cUnitType.ofCode i.header.vuhUnitType = some t) =
      ((spans off us).filter (·.1 = t)).map (·.2) := by
  induction us generalizing off with
  | nil => rfl
  | cons u us ih =>
    simp only [spans, List.map_cons, List.filter_cons, u.type_eq, ih, Option.some.injEq]
    split_ifs <;> rfl

/-- Read back from the file, the entries are the contents of the units. -/
theorem map_slice_spans (us : List (ReadableUnit p)) (pre : List UInt8) :
    (spans pre.length us).map
        (fun e => (e.1, e.2.nalInfos.map (·.slice (pre ++ us.flatMap sized)))) =
      us.map fun u => (u.unitType, u.contents) := by
  induction us generalizing pre with
  | nil => rfl
  | cons u us ih =>
    have hhead := u.slices_eq (pre ++ bigEndian p u.bytes.length) (us.flatMap sized)
    have hrest := ih (pre ++ u.sized)
    have hmem : pre ++ (u :: us).flatMap sized
        = pre ++ bigEndian p u.bytes.length ++ (u.bytes ++ us.flatMap sized) := by
      simp [sized, List.append_assoc]
    have hmem' : pre ++ (u :: us).flatMap sized = pre ++ u.sized ++ us.flatMap sized := by
      simp [List.append_assoc]
    rw [List.length_append] at hrest
    rw [List.length_append, length_bigEndian, ← hmem] at hhead
    rw [← hmem'] at hrest
    rw [spans, List.map_cons, List.map_cons, hrest, hhead]

/-- Parsing a file of readable units appends to each list the entries of its type, in
file order. -/
theorem mmapV3cFile_readable {firstByte : UInt8} (hp : precisionOf firstByte = p)
    (us : List (ReadableUnit p)) (m : V3cFileMap) :
    ∃ m', mmapV3cFile (firstByte :: us.flatMap sized)
        (firstByte :: us.flatMap sized).length m = .ok (true, m') ∧
      ∀ t, m'.units t = m.units t ++ ((spans 1 us).filter (·.1 = t)).map (·.2) := by
  subst hp
  refine ⟨((spans 1 us).map (·.2)).foldl V3cFileMap.pushUnit m, ?_, ?_⟩
  · exact mmapLoop_eq us [firstByte] m
  · intro t
    rw [V3cFileMap.units_foldl_pushUnit, filter_spans]

/-- Parsing a file of readable units into an empty map: read back from the file, each
list holds the contents of the units of its type, in file order. -/
theorem mmapV3cFile_contents {firstByte : UInt8} (hp : precisionOf firstByte = p)
    (us : List (ReadableUnit p)) :
    ∃ m, mmapV3cFile (firstByte :: us.flatMap sized)
        (firstByte :: us.flatMap sized).length {} = .ok (true, m) ∧
      ∀ t, (m.units t).map
          (·.nalInfos.map (·.slice (firstByte :: us.flatMap sized))) =
        ((us.map fun u => (u.unitType, u.contents)).filter (·.1 = t)).map (·.2) := by
  obtain ⟨m, hparse, hunits⟩ := mmapV3cFile_readable hp us {}
  refine ⟨m, hparse, fun t => ?_⟩
  have hempty : ({} : V3cFileMap).units t = [] := by cases t <;> rfl
  have hslices := map_slice_spans us [firstByte]
  rw [hunits, hempty, List.nil_append, List.map_map, ← hslices, List.filter_map,
    List.map_map]
  rfl

end ReadableUnit

/-! ## Sample streams -/

section SampleStream

variable {p : Nat} (hp : p = 2 ∨ p = 3)

theorem unitSpans_eq_spans (us : List (SampleUnit p)) (off : Nat) :
    unitSpans off us = ReadableUnit.spans off (us.map (·.readable hp)) := by
  induction us generalizing off with
  | nil => rfl
  | cons u us ih =>
    rw [unitSpans, ih]
    rfl

theorem flatMap_sized_readable (us : List (SampleUnit p)) :
    (us.map (·.readable hp)).flatMap ReadableUnit.sized = us.flatMap SampleUnit.sized := by
  rw [List.flatMap_map]
  rfl

end SampleStream

/-- Every entry of the layout denotes, in the file itself, the bytes of the unit or
NAL unit it stands for. -/
theorem layout_slices (s : SampleStream) :
    s.layout.map (fun e => (e.1, e.2.nalInfos.map (·.slice s.bytes))) =
      s.units.map fun u => (u.unitType, u.contents) := by
  have h := ReadableUnit.map_slice_spans (s.units.map (·.readable s.precision_ok))
    [s.firstByte]
  rw [flatMap_sized_readable, List.length_singleton, ← unitSpans_eq_spans,
    List.map_map] at h
  exact h

/-- Parsing a sample stream appends to each list the entries of its type, in file
order. -/
theorem mmapV3cFile_bytes (s : SampleStream) (m : V3cFileMap) :
    ∃ m', mmapV3cFile s.bytes s.bytes.length m = .ok (true, m') ∧
      ∀ t, m'.units t = m.units t ++ (s.layout.filter (·.1 = t)).map (·.2) := by
  have h := ReadableUnit.mmapV3cFile_readable rfl (s.units.map (·.readable s.precision_ok)) m
  rw [flatMap_sized_readable, ← unitSpans_eq_spans] at h
  exact h

/-- `mmap_v3c_file` on a well-formed file appends to each of the seven lists
exactly the units of its type, in file order, with the NAL units of each at their
offsets and lengths; read back from the file those are the NAL units. -/
theorem mmapV3cFile_sampleStream (s : SampleStream) (m : V3cFileMap) :
    (∃ m', mmapV3cFile s.bytes s.bytes.length m = .ok (true, m') ∧
      ∀ t, m'.units t = m.units t ++ (s.layout.filter (·.1 = t)).map (·.2)) ∧
    s.layout.map (fun e => (e.1, e.2.nalInfos.map (·.slice s.bytes))) =
      s.units.map fun u => (u.unitType, u.contents) :=
  ⟨mmapV3cFile_bytes s m, layout_slices s⟩

end RtpBenchmarks.V3c
