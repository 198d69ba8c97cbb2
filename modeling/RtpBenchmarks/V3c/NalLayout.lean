import RtpBenchmarks.Foundation.Chains
import RtpBenchmarks.V3c.Bounds

set_option autoImplicit false

/-!
# V3C: where the parser finds things

Whatever a file declares, `mmap_v3c_file` reads the size field of a unit where the unit before
it ends by its declared size, and in a unit the size field of a NAL unit where the NAL unit
before it ends.  The two cursors go their own ways: the last NAL unit of a unit may reach past
its end, and the next unit is looked for at that end all the same.
-/

namespace RtpBenchmarks.V3c

open RtpBenchmarks.Foundation

/-! ## Size fields -/

/-- The entry of a NAL unit whose size field is at `p`, in front of `limit`. -/
def NalAt (cbuf : List UInt8) (q limit p : Nat) (n : NalInfo) : Prop :=
  p < limit ∧ n.location = p + q ∧ n.size = bigEndianAt cbuf p q

/-- The unit whose size field is at `s`. -/
def UnitAt (cbuf : List UInt8) (p s : Nat) (u : UnitScan) : Prop :=
  s < cbuf.length ∧ u.start = s + p ∧ u.size = bigEndianAt cbuf s p

/-- The width of the NAL size fields of a unit. -/
def nalPrecision (cbuf : List UInt8) (u : UnitScan) : Nat :=
  if u.unitType = some .ad ∨ u.unitType = some .cad then
    precisionOf (byteAt cbuf (u.start + V3C_HDR_LEN))
  else 4

/-- Where the NAL units of a unit begin. -/
def payloadStart (u : UnitScan) : Nat :=
  u.start + V3C_HDR_LEN + if u.unitType = some .ad ∨ u.unitType = some .cad then 1 else 0

/-- The entries of a unit: each behind its size field, which is where the entry before it ends
and in front of the end of the unit. -/
structure NalsInRow (cbuf : List UInt8) (q first unitEnd : Nat) (ns : List NalInfo) : Prop where
  first : ∀ n, ns.head? = some n → n.location = first + q
  next : ∀ i a b, ns[i]? = some a → ns[i + 1]? = some b → b.location = a.location + a.size + q
  field : ∀ n ∈ ns, ∃ p, n.location = p + q ∧ p < unitEnd ∧ n.size = bigEndianAt cbuf p q
  disjoint : ns.Pairwise fun a b => a.location + a.size + q ≤ b.location
  inside : ∀ i a, ns[i]? = some a → i + 1 < ns.length → a.location + a.size < unitEnd

/-- The units of a file: each behind its size field, which is where the unit before it ends by
its declared size.  Behind the last one the file is at its end, or the parser gives up. -/
structure UnitsInRow (cbuf : List UInt8) (p : Nat) (us : List UnitScan) : Prop where
  first : ∀ u, us.head? = some u → u.start = 1 + p
  next : ∀ i u v, us[i]? = some u → us[i + 1]? = some v →
    v.start = u.start + u.size + p ∧ v.size = bigEndianAt cbuf (u.start + u.size) p
  field : ∀ u ∈ us, ∃ s, u.start = s + p ∧ s < cbuf.length ∧ u.size = bigEndianAt cbuf s p
  last : ∀ u, us.getLast? = some u → cbuf.length ≤ u.start + u.size ∨
    scanUnit cbuf p (u.start + u.size) = .error .exitFailure

/-! ## NAL units -/

section Nals

variable {cbuf : List UInt8} {q unitEnd ptr : Nat}

theorem nalLoop_chained {acc r : List NalInfo} (h : nalLoop cbuf q unitEnd ptr acc = .ok r) :
    ∃ ns, r = acc ++ ns ∧
      Chained (NalAt cbuf q unitEnd) (fun n => n.location + n.size) ptr ns := by
  fun_induction nalLoop cbuf q unitEnd ptr acc with
  | case1 ptr acc hend =>
    cases h
    exact ⟨[], (List.append_nil _).symm, trivial⟩
  | case2 ptr acc hend e he => cases h
  | case3 ptr acc hend size hsize ih =>
    obtain ⟨ns, rfl, hchain⟩ := ih h
    refine ⟨_ :: ns, List.append_assoc _ _ _, ⟨Nat.not_le.mp hend, rfl, ?_⟩, hchain⟩
    rw [readNalSize_eq] at hsize
    split_ifs at hsize
    exact (Except.ok.inj hsize).symm

theorem NalAt.le_stop (p : Nat) (n : NalInfo) (h : NalAt cbuf q unitEnd p n) :
    p ≤ n.location + n.size := by
  rw [h.2.1, Nat.add_assoc]
  exact Nat.le_add_right _ _

theorem nalsInRow_of_chained {ns : List NalInfo}
    (h : Chained (NalAt cbuf q unitEnd) (fun n => n.location + n.size) ptr ns) :
    NalsInRow cbuf q ptr unitEnd ns where
  first n hn := (h.head hn).2.1
  next i a b ha hb := (h.next ha hb).2.1
  field n hn := by
    obtain ⟨p, hp, -⟩ := h.mem NalAt.le_stop hn
    exact ⟨p, hp.2.1, hp.1, hp.2.2⟩
  disjoint := by
    refine (h.pairwise NalAt.le_stop).imp ?_
    rintro a b ⟨p, hp, hle⟩
    rw [hp.2.1]
    exact Nat.add_le_add_right hle q
  inside i a ha hi := by
    -- the size field of the next entry is where this one ends
    exact (h.next ha (List.getElem?_eq_getElem hi)).1

/-- The NAL units of a unit that is no parameter set. -/
theorem scanUnit_nalsInRow {p : Nat} {u : UnitScan} (h : scanUnit cbuf p ptr = .ok u)
    (hvps : u.unitType ≠ some .vps) :
    NalsInRow cbuf (nalPrecision cbuf u) (payloadStart u) (u.start + u.size) u.info.nalInfos := by
  obtain ⟨size, hdr, ns, -, -, hnals, rfl⟩ := scanUnit_eq_ok_iff.mp h
  have hloop : nalLoop cbuf
      (nalPrecision cbuf ⟨ptr + p, size, { header := hdr, nalInfos := ns }⟩) (ptr + p + size)
      (payloadStart ⟨ptr + p, size, { header := hdr, nalInfos := ns }⟩) [] = .ok ns := by
    unfold nalPrecision payloadStart
    unfold UnitScan.unitType at hvps ⊢
    dsimp only at hvps ⊢
    generalize V3cUnitType.ofCode hdr.vuhUnitType = t at hnals hvps ⊢
    by_cases hatlas : t = some .ad ∨ t = some .cad
    · rw [if_pos hatlas, if_pos hatlas]
      rw [unitNals_atlas hatlas] at hnals
      obtain ⟨b, hb, hnals⟩ := bind_eq_ok_iff.mp hnals
      by_cases hlt : ptr + p + V3C_HDR_LEN < cbuf.length
      · rw [byteAt_of_lt hlt, access_ok] at hb
        rw [Except.ok.inj hb]
        exact hnals
      · rw [loadByte_of_ge (Nat.not_lt.mp hlt)] at hb
        cases hb
    · rw [if_neg hatlas, if_neg hatlas]
      cases t with
      | none => exact hnals
      | some t =>
        cases t with
        | vps => exact absurd rfl hvps
        | ad => exact absurd (.inl rfl) hatlas
        | cad => exact absurd (.inr rfl) hatlas
        | ovd | gvd | avd | pvd => exact hnals
  obtain ⟨ns', rfl, hchain⟩ := nalLoop_chained hloop
  exact nalsInRow_of_chained hchain

end Nals

/-! ## Units -/

section Units

variable {cbuf : List UInt8} {p ptr : Nat}

theorem scanUnit_unitAt {u : UnitScan} (hlt : ptr < cbuf.length)
    (h : scanUnit cbuf p ptr = .ok u) : UnitAt cbuf p ptr u := by
  obtain ⟨size, hdr, ns, hsize, -, -, rfl⟩ := scanUnit_eq_ok_iff.mp h
  rw [readUnitSize_eq] at hsize
  split_ifs at hsize
  exact ⟨hlt, rfl, (Except.ok.inj hsize).symm⟩

theorem UnitAt.le_stop (s : Nat) (u : UnitScan) (h : UnitAt cbuf p s u) :
    s ≤ u.start + u.size := by
  rw [h.2.1, Nat.add_assoc]
  exact Nat.le_add_right _ _

/-- The units are chained by their declared sizes. -/
theorem scanUnits_chained :
    Chained (UnitAt cbuf p) (fun u => u.start + u.size) ptr
      (scanUnits cbuf cbuf.length p ptr).1 := by
  fun_induction scanUnits cbuf cbuf.length p ptr with
  | case1 ptr hend => exact trivial
  | case2 ptr hend e he => exact trivial
  | case3 ptr hend u hu rest ih => exact ⟨scanUnit_unitAt (Nat.not_le.mp hend) hu, ih⟩

theorem scanUnit_of_mem {u : UnitScan} (h : u ∈ (scanUnits cbuf cbuf.length p ptr).1) :
    ∃ s, scanUnit cbuf p s = .ok u := by
  fun_induction scanUnits cbuf cbuf.length p ptr with
  | case1 ptr hend => cases h
  | case2 ptr hend e he => cases h
  | case3 ptr hend v hv rest ih =>
    rcases List.mem_cons.mp h with rfl | h
    · exact ⟨ptr, hv⟩
    · exact ih h

/-- The loop stops behind the last unit: there is the end of the file, or a unit at which the
parser stops. -/
theorem scanUnits_end :
    cbuf.length ≤ chainEnd (fun u : UnitScan => u.start + u.size) ptr
        (scanUnits cbuf cbuf.length p ptr).1 ∨
      ∃ e, (scanUnits cbuf cbuf.length p ptr).2 = some e ∧
        scanUnit cbuf p (chainEnd (fun u : UnitScan => u.start + u.size) ptr
          (scanUnits cbuf cbuf.length p ptr).1) = .error e := by
  fun_induction scanUnits cbuf cbuf.length p ptr with
  | case1 ptr hend => exact .inl hend
  | case2 ptr hend e he => exact .inr ⟨e, rfl, he⟩
  | case3 ptr hend u hu rest ih => exact ih

theorem scanUnits_inRow (hstop : ∀ f, (scanUnits cbuf cbuf.length p 1).2 ≠ some (.fault f)) :
    UnitsInRow cbuf p (scanUnits cbuf cbuf.length p 1).1 where
  first u hu := (scanUnits_chained.head hu).2.1
  next i u v hu hv := (scanUnits_chained.next hu hv).2
  field u hu := by
    obtain ⟨s, hs, -⟩ := scanUnits_chained.mem UnitAt.le_stop hu
    exact ⟨s, hs.2.1, hs.1, hs.2.2⟩
  last u hu := by
    have hend := @scanUnits_end cbuf p 1
    rw [chainEnd_of_getLast? hu] at hend
    refine hend.imp_right ?_
    rintro ⟨e, hsome, herror⟩
    cases e with
    | fault f => exact absurd hsome (hstop f)
    | exitFailure => exact herror

end Units

/-- Whatever a file declares, when no byte outside it is read the units and, in every unit that
is no parameter set, the NAL units are in a row. -/
theorem mmapV3cFile_layout {cbuf : List UInt8} {m m' : V3cFileMap} {ok : Bool}
    (h : mmapV3cFile cbuf cbuf.length m = .ok (ok, m')) :
    (∀ t, m'.units t = m.units t ++
      ((recordedUnits cbuf).filter (·.unitType = some t)).map (·.info)) ∧
    UnitsInRow cbuf (precisionOf (byteAt cbuf 0)) (recordedUnits cbuf) ∧
    ∀ u ∈ recordedUnits cbuf, u.unitType ≠ some .vps →
      NalsInRow cbuf (nalPrecision cbuf u) (payloadStart u) (u.start + u.size)
        u.info.nalInfos := by
  have hpos : 0 < cbuf.length := by
    by_contra hempty
    rw [mmapV3cFile, loadByte_of_ge (Nat.not_lt.mp hempty)] at h
    cases h
  rw [mmapV3cFile_eq cbuf hpos] at h
  split at h
  · cases h
  · next hstop =>
    cases h
    refine ⟨fun t => ?_, scanUnits_inRow hstop, fun u hu hvps => ?_⟩
    · rw [V3cFileMap.units_foldl_pushUnit, List.filter_map]
      rfl
    · obtain ⟨s, hs⟩ := scanUnit_of_mem hu
      exact scanUnit_nalsInRow hs hvps

/-- Two occupancy units.  The only NAL unit of the first declares 255 bytes where the unit has
one, and the second unit is found behind the first all the same. -/
theorem mmapV3cFile_layout_two :
    UnitsInRow [0x20, 0, 9, 0x10, 0, 0, 0, 0, 0, 0, 0xff, 0xaa, 0, 4, 0x10, 0, 0, 0] 2
      (recordedUnits [0x20, 0, 9, 0x10, 0, 0, 0, 0, 0, 0, 0xff, 0xaa, 0, 4, 0x10, 0, 0, 0]) := by
  have hread : mmapV3cFile
      [0x20, 0, 9, 0x10, 0, 0, 0, 0, 0, 0, 0xff, 0xaa, 0, 4, 0x10, 0, 0, 0] 18 {} =
      .ok (true, _) := rfl
  exact (mmapV3cFile_layout hread).2.1

end RtpBenchmarks.V3c
