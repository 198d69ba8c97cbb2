import RtpBenchmarks.Foundation.Cursor
import RtpBenchmarks.V3c.Parse

set_option autoImplicit false

/-!
# V3C: which files are parsed inside their bounds

`mmap_v3c_file` compares its cursor with the length of the file in one place, at
the top of the outer loop.  Everything else it reads or records rests on the sizes
the file declares.  `Consistent` says, in terms of the bytes alone, that these
sizes fit: every size field, the header bytes each unit type needs, the atlas
precision byte and every NAL unit lie where they claim to lie.

`mmapV3cFile_inside_iff` is the exact statement: parsing stays inside the file,
every recorded entry inside its unit, and the senders' reads inside the file, if
and only if the file is consistent.
-/

namespace RtpBenchmarks.V3c

open RtpBenchmarks.Foundation

/-! ## The senders' reads -/

/-- The loop body of the two `sender_func`s: the first byte of the NAL unit is
looked at, and unless it is to be skipped the unit is pushed.  The result is the
sequence of pushed frames. -/
def pushNals (skip : UInt8 → Bool) (bytes : List UInt8) :
    List NalInfo → Except MemFault (List (List UInt8))
  | [] => pure []
  | i :: rest => do
    let b ← loadByte bytes i.location
    let naluT := (b >>> 1) &&& 0x3f
    if skip naluT then pushNals skip bytes rest
    else do
      let frame ← loadBytes bytes i.location i.size
      let frames ← pushNals skip bytes rest
      pure (frame :: frames)

/-- The reads and pushes of `sender_func` in `vpcc_sender.cc`; there the NAL unit
type only decides the pacing. -/
def vpccSenderFunc (bytes : List UInt8) (units : List V3cUnitInfo) :
    Except MemFault (List (List UInt8)) :=
  pushNals (fun _ => false) bytes (units.flatMap (·.nalInfos))

/-- The reads and pushes of `sender_func` in `sender.cc`. -/
def senderFunc (bytes : List UInt8) (units : List V3cUnitInfo) :
    Except MemFault (List (List UInt8)) :=
  pushNals (fun naluT => naluT ≥ 30) bytes (units.flatMap (·.nalInfos))

/-- Without skipping, sending stays in bounds exactly when every slice does. -/
theorem pushNals_ok_iff {bytes : List UInt8} {ns : List NalInfo} :
    (∃ frames, pushNals (fun _ => false) bytes ns = .ok frames) ↔
      ∀ n ∈ ns, n.location < bytes.length ∧ n.location + n.size ≤ bytes.length := by
  induction ns with
  | nil => simp [pushNals, pure, Except.pure]
  | cons n ns ih =>
    rw [List.forall_mem_cons, ← ih]
    simp only [pushNals, Bool.false_eq_true, if_false, bind_eq_ok_iff, loadBytes]
    constructor
    · rintro ⟨frames, b, hb, frame, hframe, rest, hrest, _⟩
      have hlt := (List.getElem?_eq_some_iff.mp (loadByte_eq_ok_iff.mp hb)).1
      split_ifs at hframe with hle
      exact ⟨⟨hlt, hle⟩, rest, hrest⟩
    · rintro ⟨⟨hlt, hle⟩, rest, hrest⟩
      exact ⟨_, _, loadByte_of_lt hlt, _, if_pos hle, rest, hrest, rfl⟩

/-- Slices that are all in bounds can be sent, whatever is skipped. -/
theorem pushNals_of_inside {skip : UInt8 → Bool} {bytes : List UInt8} {ns : List NalInfo}
    (h : ∀ n ∈ ns, n.location < bytes.length ∧ n.location + n.size ≤ bytes.length) :
    ∃ frames, pushNals skip bytes ns = .ok frames := by
  induction ns with
  | nil => exact ⟨[], rfl⟩
  | cons n ns ih =>
    obtain ⟨⟨hlt, hle⟩, hrest⟩ := List.forall_mem_cons.mp h
    obtain ⟨frames, hframes⟩ := ih hrest
    simp only [pushNals, loadByte_of_lt hlt, ok_bind, loadBytes_of_le hle, hframes]
    split_ifs
    · exact ⟨frames, rfl⟩
    · exact ⟨_, rfl⟩

/-! ## What the bytes declare -/

/-- The byte at `i`; 0 past the end, where nothing below looks at it. -/
def byteAt (cbuf : List UInt8) (i : Nat) : UInt8 := cbuf.getD i 0

/-- The unit type in the header byte at `s`. -/
def typeAt (cbuf : List UInt8) (s : Nat) : Option V3cUnitType :=
  V3cUnitType.ofCode ((byteAt cbuf s &&& 0b11111000) >>> 3)

/-- How many header bytes the fields of a unit type reach into. -/
def headerReads : Option V3cUnitType → Nat
  | none | some .vps => 1
  | some .ad | some .ovd | some .pvd | some .cad => 2
  | some .gvd => 3
  | some .avd => 4

/-- Where the NAL size fields of a unit are that ends at `unitEnd`, by the sizes in
the file. -/
def NalVisits (cbuf : List UInt8) (q unitEnd : Nat) : Nat → Nat → Prop :=
  Visits (· < unitEnd) fun x => x + q + bigEndianAt cbuf x q

/-- `Q` at every NAL size field of a NAL sample stream from `first` to `unitEnd`. -/
def EveryNal (cbuf : List UInt8) (q unitEnd first : Nat) (Q : Nat → Prop) : Prop :=
  ∀ x, NalVisits cbuf q unitEnd first x → x < unitEnd → Q x

/-- The NAL unit behind the size field at `x` ends inside its unit and the unit
inside the file; one that is sent has its first byte in the file. -/
def NalFits (cbuf : List UInt8) (q unitEnd : Nat) (sent : Bool) (x : Nat) : Prop :=
  x + q + bigEndianAt cbuf x q ≤ unitEnd ∧ unitEnd ≤ cbuf.length ∧
    (sent = true → x + q < cbuf.length)

/-- A NAL size precision `mmap_v3c_file` accepts. -/
def NalPrecisionSupported (q : Nat) : Prop := q = 2 ∨ q = 3 ∨ q = 4

/-- The payload of a unit with header at `s` and declared size `size`.  Of a reserved
type nothing is recorded, but its size fields are still read. -/
def PayloadFits (cbuf : List UInt8) (s size : Nat) : Option V3cUnitType → Prop
  | some .vps => s + size ≤ cbuf.length
  | some .ad => s + V3C_HDR_LEN < cbuf.length ∧
      (NalPrecisionSupported (precisionOf (byteAt cbuf (s + V3C_HDR_LEN))) →
        EveryNal cbuf (precisionOf (byteAt cbuf (s + V3C_HDR_LEN))) (s + size)
          (s + V3C_HDR_LEN + 1)
          (NalFits cbuf (precisionOf (byteAt cbuf (s + V3C_HDR_LEN))) (s + size) true))
  | some .cad => s + V3C_HDR_LEN < cbuf.length ∧
      (NalPrecisionSupported (precisionOf (byteAt cbuf (s + V3C_HDR_LEN))) →
        EveryNal cbuf (precisionOf (byteAt cbuf (s + V3C_HDR_LEN))) (s + size)
          (s + V3C_HDR_LEN + 1)
          (NalFits cbuf (precisionOf (byteAt cbuf (s + V3C_HDR_LEN))) (s + size) false))
  | some .ovd | some .gvd | some .avd =>
      EveryNal cbuf 4 (s + size) (s + V3C_HDR_LEN) (NalFits cbuf 4 (s + size) true)
  | some .pvd =>
      EveryNal cbuf 4 (s + size) (s + V3C_HDR_LEN) (NalFits cbuf 4 (s + size) false)
  | none => EveryNal cbuf 4 (s + size) (s + V3C_HDR_LEN) (fun x => x + 4 ≤ cbuf.length)

/-- The unit whose size field is at `ptr`. -/
def UnitFits (cbuf : List UInt8) (p ptr : Nat) : Prop :=
  ptr + p ≤ cbuf.length ∧
    (p = 2 ∨ p = 3 →
      ptr + p + headerReads (typeAt cbuf (ptr + p)) ≤ cbuf.length ∧
      PayloadFits cbuf (ptr + p) (bigEndianAt cbuf ptr p) (typeAt cbuf (ptr + p)))

/-- The two ways the file makes `mmap_v3c_file` give up: an unsupported unit size
precision, and a unit with NAL units of an unsupported size precision. -/
def GivesUp (cbuf : List UInt8) (p ptr : Nat) : Prop :=
  ¬ (p = 2 ∨ p = 3) ∨
    ((typeAt cbuf (ptr + p) = some .ad ∨ typeAt cbuf (ptr + p) = some .cad) ∧
      V3C_HDR_LEN + 1 < bigEndianAt cbuf ptr p ∧
      ¬ NalPrecisionSupported (precisionOf (byteAt cbuf (ptr + p + V3C_HDR_LEN))))

/-- Where the unit size fields are, by the sizes in the file. -/
def UnitVisits (cbuf : List UInt8) (p : Nat) : Nat → Nat → Prop :=
  Visits (fun x => x < cbuf.length ∧ ¬ GivesUp cbuf p x)
    fun x => x + p + bigEndianAt cbuf x p

/-- Every unit from the size field at `first` on fits. -/
def EveryUnitFits (cbuf : List UInt8) (p first : Nat) : Prop :=
  ∀ x, UnitVisits cbuf p first x → x < cbuf.length → UnitFits cbuf p x

/-- Every size the file declares fits into what encloses it. -/
def Consistent (cbuf : List UInt8) : Prop :=
  0 < cbuf.length ∧ EveryUnitFits cbuf (precisionOf (byteAt cbuf 0)) 1

/-! ## NAL sample streams -/

section Nals

variable {cbuf : List UInt8} {q unitEnd ptr : Nat} {acc : List NalInfo}

theorem everyNal_iff {Q : Nat → Prop} :
    EveryNal cbuf q unitEnd ptr Q ↔
      (ptr < unitEnd → Q ptr ∧
        EveryNal cbuf q unitEnd (ptr + q + bigEndianAt cbuf ptr q) Q) := by
  unfold EveryNal NalVisits
  rw [forall_visits_iff]
  tauto

theorem nalVisits_of_le {x : Nat} (h : unitEnd ≤ ptr) :
    NalVisits cbuf q unitEnd ptr x ↔ x = ptr := by
  unfold NalVisits
  exact visits_of_not (Nat.not_lt.mpr h)

theorem readNalSize_of_supported (hq : NalPrecisionSupported q) :
    readNalSize cbuf q ptr =
      if cbuf.length < ptr + q then .error (.fault .outOfBounds)
      else .ok (bigEndianAt cbuf ptr q) := by
  rw [readNalSize_eq]
  exact if_pos hq

theorem readNalSize_of_unsupported (hq : ¬ NalPrecisionSupported q) :
    readNalSize cbuf q ptr = .error .exitFailure := by
  rw [readNalSize_eq]
  exact if_neg hq

/-- With a supported precision, the loop reads only size fields in the file if and
only if it returns. -/
theorem nalLoop_ok_iff (hq : NalPrecisionSupported q) :
    (∃ r, nalLoop cbuf q unitEnd ptr acc = .ok r) ↔
      EveryNal cbuf q unitEnd ptr (fun x => x + q ≤ cbuf.length) := by
  fun_induction nalLoop cbuf q unitEnd ptr acc with
  | case1 ptr acc hend =>
    rw [everyNal_iff]
    simp [Nat.not_lt.mpr hend]
  | case2 ptr acc hend e he =>
    rw [everyNal_iff]
    rw [readNalSize_of_supported hq] at he
    split_ifs at he with hlt
    simp only [reduceCtorEq, exists_false, false_iff]
    intro h
    have := (h (Nat.not_le.mp hend)).1
    omega
  | case3 ptr acc hend size hsize ih =>
    rw [readNalSize_of_supported hq] at hsize
    split_ifs at hsize with hlt
    cases hsize
    have hnext : EveryNal cbuf q unitEnd ptr (fun x => x + q ≤ cbuf.length) ↔ _ :=
      everyNal_iff
    rw [ih, hnext]
    constructor
    · intro h _
      exact ⟨by omega, h⟩
    · intro h
      exact (h (Nat.not_le.mp hend)).2

/-- The entries recorded by a returning loop: one for each size field. -/
theorem mem_nalLoop {r : List NalInfo} (hr : nalLoop cbuf q unitEnd ptr acc = .ok r)
    {n : NalInfo} :
    n ∈ r ↔ n ∈ acc ∨ ∃ x, NalVisits cbuf q unitEnd ptr x ∧ x < unitEnd ∧
      n = { location := x + q, size := bigEndianAt cbuf x q } := by
  fun_induction nalLoop cbuf q unitEnd ptr acc with
  | case1 ptr acc hend =>
    cases hr
    constructor
    · exact Or.inl
    · rintro (h | ⟨x, hx, hlt, _⟩)
      · exact h
      · have hx' := (nalVisits_of_le hend).mp hx
        omega
  | case2 ptr acc hend e he => cases hr
  | case3 ptr acc hend size hsize ih =>
    have hlt : ptr < unitEnd := Nat.not_le.mp hend
    have hsize' : size = bigEndianAt cbuf ptr q := by
      rw [readNalSize_eq] at hsize
      split_ifs at hsize
      exact (Except.ok.inj hsize).symm
    subst hsize'
    rw [ih hr, List.mem_append, List.mem_singleton, or_assoc]
    refine or_congr_right ?_
    constructor
    · rintro (h | ⟨x, hx, hxlt, h⟩)
      · exact ⟨ptr, visits_iff.mpr (Or.inl rfl), hlt, h⟩
      · exact ⟨x, visits_iff.mpr (Or.inr ⟨hlt, hx⟩), hxlt, h⟩
    · rintro ⟨x, hx, hxlt, h⟩
      rcases visits_iff.mp hx with rfl | ⟨_, hx⟩
      · exact Or.inl h
      · exact Or.inr ⟨x, hx, hxlt, h⟩

/-- An unsupported precision is noticed at the first size field. -/
theorem nalLoop_unsupported (hq : ¬ NalPrecisionSupported q) :
    nalLoop cbuf q unitEnd ptr acc =
      if ptr < unitEnd then .error .exitFailure else .ok acc := by
  have hread : readNalSize cbuf q ptr = .error .exitFailure :=
    readNalSize_of_unsupported hq
  rw [nalLoop]
  by_cases h : ptr < unitEnd
  · rw [if_neg (Nat.not_le.mpr h), if_pos h]
    split
    · rename_i e he
      rw [hread] at he
      cases he
      rfl
    · rename_i n hn
      rw [hread] at hn
      cases hn
  · rw [if_pos (Nat.not_lt.mp h), if_neg h]

/-- A supported precision never makes the parser give up. -/
theorem nalLoop_not_exitFailure (hq : NalPrecisionSupported q) :
    nalLoop cbuf q unitEnd ptr acc ≠ .error .exitFailure := by
  fun_induction nalLoop cbuf q unitEnd ptr acc with
  | case1 ptr acc hend => simp
  | case2 ptr acc hend e he =>
    rw [readNalSize_of_supported hq] at he
    split_ifs at he
    cases he
    simp
  | case3 ptr acc hend size hsize ih => exact ih

end Nals

/-! ## Headers -/

section Headers

variable {cbuf : List UInt8} {s : Nat}

theorem byteAt_of_lt (h : s < cbuf.length) : loadByte cbuf s = .ok (byteAt cbuf s) := by
  simp [loadByte_of_lt h, byteAt, h]

theorem loadByte_of_ge (h : cbuf.length ≤ s) : loadByte cbuf s = .error .outOfBounds :=
  loadByte_eq_error_iff.mpr ⟨h, rfl⟩

/-- A header whose bytes are in the file is read, with the type in its first byte. -/
theorem parseV3cHeader_of_le (h : s + headerReads (typeAt cbuf s) ≤ cbuf.length) :
    ∃ hdr, parseV3cHeader {} cbuf s = .ok hdr ∧
      V3cUnitType.ofCode hdr.vuhUnitType = typeAt cbuf s := by
  have h0 : loadByte cbuf s = .ok (byteAt cbuf s) := by
    apply byteAt_of_lt
    cases ht : typeAt cbuf s with
    | none => simp only [ht, headerReads] at h; omega
    | some t => cases t <;> simp only [ht, headerReads] at h <;> omega
  unfold parseV3cHeader
  rw [h0, ok_bind]
  cases ht : typeAt cbuf s with
  | none =>
    rw [typeAt] at ht
    simp only [ht]
    exact ⟨_, rfl, ht⟩
  | some t =>
    rw [ht] at h
    rw [typeAt] at ht
    simp only [ht]
    cases t with
    | vps => exact ⟨_, rfl, ht⟩
    | ad | ovd | pvd | cad =>
      have h1 : loadByte cbuf (s + 1) = .ok (byteAt cbuf (s + 1)) := byteAt_of_lt h
      simp only [h1, ok_bind]
      exact ⟨_, rfl, ht⟩
    | gvd =>
      have h1 : loadByte cbuf (s + 1) = .ok (byteAt cbuf (s + 1)) :=
        byteAt_of_lt (Nat.lt_of_succ_lt h)
      have h2 : loadByte cbuf (s + 2) = .ok (byteAt cbuf (s + 2)) := byteAt_of_lt h
      simp only [h1, h2, ok_bind]
      exact ⟨_, rfl, ht⟩
    | avd =>
      have h1 : loadByte cbuf (s + 1) = .ok (byteAt cbuf (s + 1)) :=
        byteAt_of_lt (Nat.lt_of_succ_lt (Nat.lt_of_succ_lt h))
      have h2 : loadByte cbuf (s + 2) = .ok (byteAt cbuf (s + 2)) :=
        byteAt_of_lt (Nat.lt_of_succ_lt h)
      have h3 : loadByte cbuf (s + 3) = .ok (byteAt cbuf (s + 3)) := byteAt_of_lt h
      simp only [h1, h2, h3, ok_bind]
      exact ⟨_, rfl, ht⟩

/-- A header cut off by the end of the file is read past it. -/
theorem parseV3cHeader_of_gt (h : cbuf.length < s + headerReads (typeAt cbuf s)) :
    parseV3cHeader {} cbuf s = .error .outOfBounds := by
  unfold parseV3cHeader
  by_cases h0 : s < cbuf.length
  · rw [byteAt_of_lt h0, ok_bind]
    cases ht : typeAt cbuf s with
    | none =>
      rw [ht, headerReads] at h
      omega
    | some t =>
      rw [ht] at h
      rw [typeAt] at ht
      simp only [ht]
      cases t with
      | vps =>
        simp only [headerReads] at h
        omega
      | ad | ovd | pvd | cad =>
        have h1 : cbuf.length ≤ s + 1 := Nat.le_of_lt_succ h
        simp only [loadByte_of_ge h1]
        rfl
      | gvd =>
        by_cases h1 : s + 1 < cbuf.length
        · have h2 : cbuf.length ≤ s + 2 := Nat.le_of_lt_succ h
          simp only [byteAt_of_lt h1, loadByte_of_ge h2]
          rfl
        · simp only [loadByte_of_ge (Nat.not_lt.mp h1)]
          rfl
      | avd =>
        by_cases h1 : s + 1 < cbuf.length
        · by_cases h2 : s + 2 < cbuf.length
          · have h3 : cbuf.length ≤ s + 3 := Nat.le_of_lt_succ h
            simp only [byteAt_of_lt h1, byteAt_of_lt h2, loadByte_of_ge h3]
            rfl
          · simp only [byteAt_of_lt h1, loadByte_of_ge (Nat.not_lt.mp h2)]
            rfl
        · simp only [loadByte_of_ge (Nat.not_lt.mp h1)]
          rfl
  · rw [loadByte_of_ge (Nat.not_lt.mp h0)]
    rfl

end Headers

/-! ## Units -/

/-- The unit type an entry is filed under. -/
def UnitScan.unitType (u : UnitScan) : Option V3cUnitType :=
  V3cUnitType.ofCode u.info.header.vuhUnitType

/-- An entry lies in its unit, the unit in the file, and the first byte of what is
sent in the file. -/
def NalInfo.Contained (n : NalInfo) (cbuf : List UInt8) (unitEnd : Nat) (sent : Bool) :
    Prop :=
  n.location + n.size ≤ unitEnd ∧ unitEnd ≤ cbuf.length ∧
    (sent = true → n.location < cbuf.length)

/-- Every entry recorded for the unit is contained. -/
def UnitScan.Contained (u : UnitScan) (cbuf : List UInt8) : Prop :=
  ∀ t, u.unitType = some t → ∀ n ∈ u.info.nalInfos,
    n.Contained cbuf (u.start + u.size) t.hasStream

section Units

variable {cbuf : List UInt8} {q unitEnd ptr s size : Nat} {ns : List NalInfo}
  {t : Option V3cUnitType}

/-- The entries of a NAL sample stream are contained exactly when its size fields
fit. -/
theorem nalLoop_contained_iff {sent : Bool}
    (h : nalLoop cbuf q unitEnd ptr [] = .ok ns) :
    (∀ n ∈ ns, n.Contained cbuf unitEnd sent) ↔
      EveryNal cbuf q unitEnd ptr (NalFits cbuf q unitEnd sent) := by
  constructor
  · intro hns x hx hlt
    exact hns _ ((mem_nalLoop h).mpr (Or.inr ⟨x, hx, hlt, rfl⟩))
  · intro hfits n hn
    rcases (mem_nalLoop h).mp hn with hn | ⟨x, hx, hlt, rfl⟩
    · cases hn
    · exact hfits x hx hlt

/-- Size fields that fit are read. -/
theorem nalLoop_ok_of_fits (hq : NalPrecisionSupported q) {sent : Bool}
    (h : EveryNal cbuf q unitEnd ptr (NalFits cbuf q unitEnd sent)) :
    ∃ ns, nalLoop cbuf q unitEnd ptr [] = .ok ns := by
  refine (nalLoop_ok_iff hq).mpr fun x hx hlt => ?_
  have := h x hx hlt
  unfold NalFits at this
  omega

/-- The payload of a unit makes the parser give up. -/
def PayloadGivesUp (cbuf : List UInt8) (s size : Nat) (t : Option V3cUnitType) : Prop :=
  (t = some .ad ∨ t = some .cad) ∧ V3C_HDR_LEN + 1 < size ∧
    ¬ NalPrecisionSupported (precisionOf (byteAt cbuf (s + V3C_HDR_LEN)))

/-- The two atlas types, which differ in whether they are sent. -/
theorem unitNals_atlas (ht : t = some .ad ∨ t = some .cad) :
    unitNals cbuf t s size = (do
      let v3cuFirstByte ← access (loadByte cbuf (s + V3C_HDR_LEN))
      nalLoop cbuf (precisionOf v3cuFirstByte) (s + size) (s + V3C_HDR_LEN + 1) []) := by
  rcases ht with rfl | rfl <;> rfl

theorem payloadFits_atlas (ht : t = some .ad ∨ t = some .cad) :
    PayloadFits cbuf s size t ↔ s + V3C_HDR_LEN < cbuf.length ∧
      (NalPrecisionSupported (precisionOf (byteAt cbuf (s + V3C_HDR_LEN))) →
        EveryNal cbuf (precisionOf (byteAt cbuf (s + V3C_HDR_LEN))) (s + size)
          (s + V3C_HDR_LEN + 1)
          (NalFits cbuf (precisionOf (byteAt cbuf (s + V3C_HDR_LEN))) (s + size)
            (t = some .ad))) := by
  rcases ht with rfl | rfl <;> exact Iff.rfl

/-- A payload that fits is parsed, unless it makes the parser give up. -/
theorem unitNals_of_fits (h : PayloadFits cbuf s size t) :
    (PayloadGivesUp cbuf s size t ∧ unitNals cbuf t s size = .error .exitFailure) ∨
      (¬ PayloadGivesUp cbuf s size t ∧ ∃ ns, unitNals cbuf t s size = .ok ns) := by
  by_cases hatlas : t = some .ad ∨ t = some .cad
  · obtain ⟨hlt, hnals⟩ := (payloadFits_atlas hatlas).mp h
    rw [unitNals_atlas hatlas, byteAt_of_lt hlt, access_ok, ok_bind]
    by_cases hq : NalPrecisionSupported (precisionOf (byteAt cbuf (s + V3C_HDR_LEN)))
    · exact Or.inr ⟨fun hg => hg.2.2 hq, nalLoop_ok_of_fits hq (hnals hq)⟩
    · rw [nalLoop_unsupported hq]
      by_cases hsize : V3C_HDR_LEN + 1 < size
      · rw [if_pos (by omega)]
        exact Or.inl ⟨⟨hatlas, hsize, hq⟩, rfl⟩
      · rw [if_neg (by omega)]
        exact Or.inr ⟨fun hg => hsize hg.2.1, _, rfl⟩
  · have h4 : NalPrecisionSupported 4 := Or.inr (Or.inr rfl)
    refine Or.inr ⟨fun hg => hatlas hg.1, ?_⟩
    cases t with
    | none => exact (nalLoop_ok_iff h4).mpr h
    | some t =>
      cases t with
      | vps => exact ⟨_, rfl⟩
      | ad => exact absurd (Or.inl rfl) hatlas
      | cad => exact absurd (Or.inr rfl) hatlas
      | ovd | gvd | avd | pvd => exact nalLoop_ok_of_fits h4 h

/-- The entries of a parsed payload are contained exactly when the payload fits. -/
theorem payloadFits_iff (h : unitNals cbuf t s size = .ok ns) :
    PayloadFits cbuf s size t ↔
      ∀ t', t = some t' → ∀ n ∈ ns, n.Contained cbuf (s + size) t'.hasStream := by
  by_cases hatlas : t = some .ad ∨ t = some .cad
  · have hsent : ∀ t', t = some t' → t'.hasStream = decide (t = some .ad) := by
      rintro t' rfl
      rcases hatlas with h | h <;> cases h <;> rfl
    obtain ⟨t', rfl⟩ : ∃ t', t = some t' := by
      rcases hatlas with rfl | rfl <;> exact ⟨_, rfl⟩
    rw [unitNals_atlas hatlas] at h
    rw [payloadFits_atlas hatlas]
    simp only [Option.some.injEq, forall_eq', hsent t' rfl]
    by_cases hlt : s + V3C_HDR_LEN < cbuf.length
    · rw [byteAt_of_lt hlt, access_ok, ok_bind] at h
      by_cases hq : NalPrecisionSupported (precisionOf (byteAt cbuf (s + V3C_HDR_LEN)))
      · rw [nalLoop_contained_iff h]
        simp [hlt, hq]
      · rw [nalLoop_unsupported hq] at h
        split_ifs at h
        cases h
        simp [hlt, hq]
    · rw [loadByte_of_ge (Nat.not_lt.mp hlt)] at h
      cases h
  · cases t with
    | none =>
      have h4 : NalPrecisionSupported 4 := Or.inr (Or.inr rfl)
      exact ⟨fun _ t' ht' => (by cases ht'), fun _ => (nalLoop_ok_iff h4).mp ⟨ns, h⟩⟩
    | some t =>
      simp only [Option.some.injEq, forall_eq']
      cases t with
      | vps =>
        cases h
        simp [PayloadFits, NalInfo.Contained, V3cUnitType.hasStream]
      | ad => exact absurd (Or.inl rfl) hatlas
      | cad => exact absurd (Or.inr rfl) hatlas
      | ovd | gvd | avd | pvd => exact (nalLoop_contained_iff h).symm

/-- A unit that fits is scanned, or makes the parser give up; the next unit is where
its size field says. -/
theorem scanUnit_of_fits {p : Nat} (h : UnitFits cbuf p ptr) :
    (GivesUp cbuf p ptr ∧ scanUnit cbuf p ptr = .error .exitFailure) ∨
      (¬ GivesUp cbuf p ptr ∧ ∃ u, scanUnit cbuf p ptr = .ok u) := by
  obtain ⟨hsize, hrest⟩ := h
  unfold scanUnit
  rw [readUnitSize_eq, if_neg (Nat.not_lt.mpr hsize)]
  by_cases hp : p = 2 ∨ p = 3
  · obtain ⟨hhdr, hpayload⟩ := hrest hp
    obtain ⟨hdr, hparse, htype⟩ := parseV3cHeader_of_le hhdr
    rw [if_pos hp]
    simp only [ok_bind, hparse, access_ok, htype]
    rcases unitNals_of_fits hpayload with ⟨hg, hnals⟩ | ⟨hg, ns, hnals⟩
    · rw [hnals]
      exact Or.inl ⟨Or.inr hg, rfl⟩
    · rw [hnals]
      refine Or.inr ⟨?_, _, rfl⟩
      rintro (h | h)
      · exact h hp
      · exact hg h
  · rw [if_neg hp]
    exact Or.inl ⟨Or.inl hp, rfl⟩

/-- What a scanned unit says about the bytes it was read from. -/
theorem scanUnit_ok {p : Nat} {u : UnitScan} (h : scanUnit cbuf p ptr = .ok u) :
    u.start + u.size = ptr + p + bigEndianAt cbuf ptr p ∧
      (UnitFits cbuf p ptr ↔ u.Contained cbuf) := by
  obtain ⟨size, hdr, ns, hsize, hparse, hnals, rfl⟩ := scanUnit_eq_ok_iff.mp h
  rw [readUnitSize_eq] at hsize
  split_ifs at hsize with hlt hp
  cases hsize
  refine ⟨rfl, ?_⟩
  have hhdr : ptr + p + headerReads (typeAt cbuf (ptr + p)) ≤ cbuf.length := by
    by_contra hgt
    rw [parseV3cHeader_of_gt (Nat.not_le.mp hgt)] at hparse
    cases hparse
  obtain ⟨hdr', hparse', htype⟩ := parseV3cHeader_of_le hhdr
  rw [hparse] at hparse'
  cases hparse'
  rw [htype] at hnals
  unfold UnitScan.Contained UnitScan.unitType
  simp only [htype, ← payloadFits_iff hnals, UnitFits]
  simp only [hp, hhdr, Nat.not_lt.mp hlt, forall_const, true_and]

/-- The parser gives up only on a payload that fits. -/
theorem unitNals_exitFailure (h : unitNals cbuf t s size = .error .exitFailure) :
    PayloadFits cbuf s size t ∧ PayloadGivesUp cbuf s size t := by
  have h4 : NalPrecisionSupported 4 := Or.inr (Or.inr rfl)
  by_cases hatlas : t = some .ad ∨ t = some .cad
  · rw [unitNals_atlas hatlas] at h
    by_cases hlt : s + V3C_HDR_LEN < cbuf.length
    · rw [byteAt_of_lt hlt, access_ok, ok_bind] at h
      by_cases hq : NalPrecisionSupported (precisionOf (byteAt cbuf (s + V3C_HDR_LEN)))
      · exact absurd h (nalLoop_not_exitFailure hq)
      · rw [nalLoop_unsupported hq] at h
        split_ifs at h with hsize
        exact ⟨(payloadFits_atlas hatlas).mpr ⟨hlt, fun h => absurd h hq⟩,
          hatlas, by omega, hq⟩
    · rw [loadByte_of_ge (Nat.not_lt.mp hlt)] at h
      cases h
  · cases t with
    | none => exact absurd h (nalLoop_not_exitFailure h4)
    | some t =>
      cases t with
      | vps => cases h
      | ad => exact absurd (Or.inl rfl) hatlas
      | cad => exact absurd (Or.inr rfl) hatlas
      | ovd | gvd | avd | pvd => exact absurd h (nalLoop_not_exitFailure h4)

theorem scanUnit_exitFailure {p : Nat}
    (h : scanUnit cbuf p ptr = .error .exitFailure) :
    UnitFits cbuf p ptr ∧ GivesUp cbuf p ptr := by
  unfold scanUnit at h
  rw [readUnitSize_eq] at h
  split_ifs at h with hlt hp
  · cases h
  · simp only [ok_bind] at h
    by_cases hhdr : ptr + p + headerReads (typeAt cbuf (ptr + p)) ≤ cbuf.length
    · obtain ⟨hdr, hparse, htype⟩ := parseV3cHeader_of_le hhdr
      simp only [hparse, access_ok, ok_bind, htype] at h
      rcases bind_eq_error_iff.mp h with h | ⟨_, _, h⟩
      · obtain ⟨hfits, hg⟩ := unitNals_exitFailure h
        exact ⟨⟨Nat.not_lt.mp hlt, fun _ => ⟨hhdr, hfits⟩⟩, Or.inr hg⟩
      · cases h
    · rw [parseV3cHeader_of_gt (Nat.not_le.mp hhdr)] at h
      cases h
  · exact ⟨⟨Nat.not_lt.mp hlt, fun h => absurd h hp⟩, Or.inl hp⟩

end Units

/-! ## Files -/

/-- The units the outer loop completes, in order, and why it stops before the end of
the file if it does. -/
@[semireducible] def scanUnits (cbuf : List UInt8) (len v3cSizePrecision ptr : Nat) :
    List UnitScan × Option ParseStop :=
  if ptr ≥ len then ([], none)
  else
    match _h : scanUnit cbuf v3cSizePrecision ptr with
    | .error e => ([], some e)
    | .ok u =>
      let rest := scanUnits cbuf len v3cSizePrecision (u.start + u.size)
      (u :: rest.1, rest.2)
termination_by len - ptr
decreasing_by
  have := scanUnit_advances _h
  omega

section Files

variable {cbuf : List UInt8} {len p ptr : Nat}

theorem scanUnits_of_ge (h : len ≤ ptr) : scanUnits cbuf len p ptr = ([], none) := by
  rw [scanUnits, if_pos h]

theorem scanUnits_of_error {e : ParseStop} (h : ptr < len)
    (he : scanUnit cbuf p ptr = .error e) :
    scanUnits cbuf len p ptr = ([], some e) := by
  rw [scanUnits, if_neg (Nat.not_le.mpr h)]
  split
  · rename_i e' he'
    rw [he] at he'
    cases he'
    rfl
  · rename_i u hu
    rw [he] at hu
    cases hu

theorem scanUnits_of_ok {u : UnitScan} (h : ptr < len)
    (hu : scanUnit cbuf p ptr = .ok u) :
    scanUnits cbuf len p ptr =
      (u :: (scanUnits cbuf len p (u.start + u.size)).1,
        (scanUnits cbuf len p (u.start + u.size)).2) := by
  rw [scanUnits, if_neg (Nat.not_le.mpr h)]
  split
  · rename_i e he
    rw [hu] at he
    cases he
  · rename_i u' hu'
    rw [hu] at hu'
    cases hu'
    rfl

/-- The outer loop faults where its trace does, and otherwise pushes the units of its
trace. -/
theorem mmapLoop_eq_scanUnits (m : V3cFileMap) :
    mmapLoop cbuf len p ptr m =
      match (scanUnits cbuf len p ptr).2 with
      | some (.fault f) => .error f
      | _ => .ok (true,
          ((scanUnits cbuf len p ptr).1.map (·.info)).foldl V3cFileMap.pushUnit m) := by
  fun_induction mmapLoop cbuf len p ptr m with
  | case1 ptr m hend => rw [scanUnits_of_ge hend]; rfl
  | case2 ptr m hend f hf => rw [scanUnits_of_error (Nat.not_le.mp hend) hf]
  | case3 ptr m hend hf => rw [scanUnits_of_error (Nat.not_le.mp hend) hf]; rfl
  | case4 ptr m hend u hu ih => rw [scanUnits_of_ok (Nat.not_le.mp hend) hu, ih]; rfl

theorem everyUnitFits_iff :
    EveryUnitFits cbuf p ptr ↔
      (ptr < cbuf.length → UnitFits cbuf p ptr) ∧
      (ptr < cbuf.length ∧ ¬ GivesUp cbuf p ptr →
        EveryUnitFits cbuf p (ptr + p + bigEndianAt cbuf ptr p)) := by
  unfold EveryUnitFits UnitVisits
  rw [forall_visits_iff]

/-- The outer loop stays inside the file, and everything it records inside its unit,
exactly when every visited unit fits. -/
theorem scanUnits_contained_iff :
    ((∀ f, (scanUnits cbuf cbuf.length p ptr).2 ≠ some (.fault f)) ∧
      ∀ u ∈ (scanUnits cbuf cbuf.length p ptr).1, u.Contained cbuf) ↔
      EveryUnitFits cbuf p ptr := by
  fun_induction scanUnits cbuf cbuf.length p ptr with
  | case1 ptr hend =>
    rw [everyUnitFits_iff]
    have hlt : ¬ ptr < cbuf.length := Nat.not_lt.mpr hend
    simp [hlt]
  | case2 ptr hend e he =>
    rw [everyUnitFits_iff]
    have hlt : ptr < cbuf.length := Nat.not_le.mp hend
    cases e with
    | fault f =>
      constructor
      · exact fun h => absurd rfl (h.1 f)
      · rintro ⟨hfits, _⟩
        rcases scanUnit_of_fits (hfits hlt) with ⟨_, h⟩ | ⟨_, u, h⟩ <;>
          rw [he] at h <;> cases h
    | exitFailure =>
      obtain ⟨hfits, hg⟩ := scanUnit_exitFailure he
      simp [hfits, hg]
  | case3 ptr hend u hu rest ih =>
    have hlt : ptr < cbuf.length := Nat.not_le.mp hend
    obtain ⟨hnext, hiff⟩ := scanUnit_ok hu
    have hgo : UnitFits cbuf p ptr → ¬ GivesUp cbuf p ptr := by
      intro hfits
      rcases scanUnit_of_fits hfits with ⟨_, h⟩ | ⟨h, _⟩
      · rw [hu] at h
        cases h
      · exact h
    rw [everyUnitFits_iff]
    rw [hnext] at ih
    constructor
    · rintro ⟨hstop, hunits⟩
      have hfits := hiff.mpr (hunits u List.mem_cons_self)
      refine ⟨fun _ => hfits, fun _ => ih.mp ⟨?_, ?_⟩⟩
      · rw [← hnext]
        exact hstop
      · rw [← hnext]
        exact fun v hv => hunits v (List.mem_cons_of_mem u hv)
    · rintro ⟨hfits, hrest⟩
      obtain ⟨hstop, hunits⟩ := ih.mpr (hrest ⟨hlt, hgo (hfits hlt)⟩)
      rw [← hnext] at hstop hunits
      exact ⟨hstop, List.forall_mem_cons.mpr ⟨hiff.mp (hfits hlt), hunits⟩⟩

end Files

/-- The units `mmap_v3c_file` completes. -/
def recordedUnits (cbuf : List UInt8) : List UnitScan :=
  (scanUnits cbuf cbuf.length (precisionOf (byteAt cbuf 0)) 1).1

/-- `mmap_v3c_file` on a whole file, by its trace. -/
theorem mmapV3cFile_eq (cbuf : List UInt8) (h : 0 < cbuf.length) (m : V3cFileMap) :
    mmapV3cFile cbuf cbuf.length m =
      match (scanUnits cbuf cbuf.length (precisionOf (byteAt cbuf 0)) 1).2 with
      | some (.fault f) => .error f
      | _ => .ok (true,
          ((recordedUnits cbuf).map (·.info)).foldl V3cFileMap.pushUnit m) := by
  rw [mmapV3cFile, byteAt_of_lt h, ok_bind, mmapLoop_eq_scanUnits]
  rfl

theorem units_recorded (us : List UnitScan) (t : V3cUnitType) :
    ((us.map (·.info)).foldl V3cFileMap.pushUnit {}).units t =
      (us.filter (·.unitType = some t)).map (·.info) := by
  have hempty : ({} : V3cFileMap).units t = [] := by cases t <;> rfl
  rw [V3cFileMap.units_foldl_pushUnit, hempty, List.nil_append, List.filter_map]
  rfl

/-- The slices of contained units of a type that is sent can be sent. -/
theorem sent_inside {cbuf : List UInt8} {us : List UnitScan}
    (h : ∀ u ∈ us, u.Contained cbuf) {t : V3cUnitType} (ht : t.hasStream = true) :
    ∀ n ∈ ((us.filter (·.unitType = some t)).map (·.info)).flatMap (·.nalInfos),
      n.location < cbuf.length ∧ n.location + n.size ≤ cbuf.length := by
  intro n hn
  simp only [List.mem_flatMap, List.mem_map, List.mem_filter, decide_eq_true_eq] at hn
  obtain ⟨_, ⟨u, ⟨hu, htype⟩, rfl⟩, hn⟩ := hn
  obtain ⟨hunit, hfile, hsent⟩ := h u hu t htype n hn
  exact ⟨hsent ht, Nat.le_trans hunit hfile⟩

/-- Exactly on consistent files does `mmap_v3c_file` read no byte outside the file,
put every entry it records inside its unit and the unit inside the file, and give the
senders only slices inside the file. -/
theorem mmapV3cFile_inside_iff (cbuf : List UInt8) :
    (∃ ok m, mmapV3cFile cbuf cbuf.length {} = .ok (ok, m) ∧
      (∀ t, m.units t = ((recordedUnits cbuf).filter (·.unitType = some t)).map (·.info)) ∧
      (∀ u ∈ recordedUnits cbuf, u.unitType ≠ none → ∀ n ∈ u.info.nalInfos,
        n.location + n.size ≤ u.start + u.size ∧ u.start + u.size ≤ cbuf.length) ∧
      (∀ t, t.hasStream = true → ∃ frames, vpccSenderFunc cbuf (m.units t) = .ok frames) ∧
      (∃ frames, senderFunc cbuf m.adUnits = .ok frames)) ↔
    Consistent cbuf := by
  unfold Consistent
  rw [← scanUnits_contained_iff]
  constructor
  · rintro ⟨ok, m, hparse, hunits, hinside, hvpcc, _⟩
    have hpos : 0 < cbuf.length := by
      by_contra h
      rw [mmapV3cFile, loadByte_of_ge (Nat.not_lt.mp h)] at hparse
      cases hparse
    refine ⟨hpos, ?_, ?_⟩
    · intro f hf
      rw [mmapV3cFile_eq cbuf hpos, hf] at hparse
      cases hparse
    · intro u hu t ht n hn
      obtain ⟨hunit, hfile⟩ := hinside u hu (by rw [ht]; simp) n hn
      refine ⟨hunit, hfile, fun hsent => ?_⟩
      have hmem : n ∈ (m.units t).flatMap (·.nalInfos) := by
        rw [hunits]
        simp only [List.mem_flatMap, List.mem_map, List.mem_filter, decide_eq_true_eq]
        exact ⟨_, ⟨u, ⟨hu, ht⟩, rfl⟩, hn⟩
      exact (pushNals_ok_iff.mp (hvpcc t hsent) n hmem).1
  · rintro ⟨hpos, hstop, hcontained⟩
    refine ⟨true, ((recordedUnits cbuf).map (·.info)).foldl V3cFileMap.pushUnit {},
      ?_, units_recorded _, ?_, ?_, ?_⟩
    · rw [mmapV3cFile_eq cbuf hpos]
      split
      · rename_i f hf
        exact absurd hf (hstop f)
      · rfl
    · intro u hu htype n hn
      obtain ⟨t, ht⟩ := Option.ne_none_iff_exists'.mp htype
      obtain ⟨hunit, hfile, _⟩ := hcontained u hu t ht n hn
      exact ⟨hunit, hfile⟩
    · intro t ht
      rw [units_recorded]
      exact pushNals_of_inside (sent_inside hcontained ht)
    · have hinside := sent_inside hcontained (t := .ad) rfl
      rw [← units_recorded] at hinside
      exact pushNals_of_inside hinside

/-- Two files that are not consistent.  In the first the size field of the first unit
is cut off, and is read past the end of the file.  In the second the only NAL unit
declares 255 bytes where its unit has one; it is recorded as the slice from 11 to
266 of a file of 12 bytes, and sending it reads past the end. -/
theorem mmapV3cFile_not_inside :
    mmapV3cFile [0x40, 0x00] 2 {} = .error .outOfBounds ∧
    (∃ m, mmapV3cFile [0x20, 0, 9, 0x10, 0, 0, 0, 0, 0, 0, 0xff, 0xaa] 12 {}
        = .ok (true, m) ∧
      m.ovdUnits.map (·.nalInfos) = [[{ location := 11, size := 255 }]] ∧
      vpccSenderFunc [0x20, 0, 9, 0x10, 0, 0, 0, 0, 0, 0, 0xff, 0xaa] m.ovdUnits
        = .error .outOfBounds) :=
  ⟨rfl, _, rfl, rfl, rfl⟩

end RtpBenchmarks.V3c
