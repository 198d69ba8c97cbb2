import RtpBenchmarks.Foundation.Blocks
import RtpBenchmarks.V3c.Readiness
import RtpBenchmarks.V3c.RoundTrip

set_option autoImplicit false

/-!
# V3C: from a file over the streams to a file

The sender hands the NAL units of a file to the streams, unit by unit; what comes on a stream
does not tell where a unit ends.  The receiving side knows how many NAL units the units of each
stream have, and collects that many.  So the GoPs it writes have the contents of the file, however
the streams are interleaved, and as soon as their NAL units have come.
-/

namespace RtpBenchmarks.V3c

open RtpBenchmarks.Foundation

/-! ## The receiving side -/

/-- A type whose NAL units are sent. -/
abbrev Stream : Type := { t : V3cUnitType // t.hasStream = true }

/-- What comes to the receiving side: a frame on a stream, or a VPS, which comes from
elsewhere. -/
inductive Arrival where
  | frame (t : Stream) (frame : RtpFrame)
  | vps (payload : List UInt8)
  deriving DecidableEq, Repr

/-- A VPS unit of one NAL unit. -/
def vpsUnit (payload : List UInt8) : V3cUnitInfo where
  header := {}
  nalInfos := [{ size := payload.length, buf := some payload }]

/-- A frame is collected in units of the size of its stream, a VPS unit is appended. -/
def arrive (maxSize : V3cUnitType → Nat) (m : V3cFileMap) : Arrival → Except MemFault V3cFileMap
  | .frame t frame => do
    let units ← copyRtpPayload (m.units t) (maxSize t) frame
    pure (m.setUnits units t)
  | .vps payload => pure (m.setUnits (m.vpsUnits ++ [vpsUnit payload]) .vps)

/-- The map when all this has come. -/
def collect (maxSize : V3cUnitType → Nat) (arrivals : List Arrival) : Except MemFault V3cFileMap :=
  arrivals.foldlM (arrive maxSize) initMmap

def Arrival.on (t : V3cUnitType) : Arrival → Option RtpFrame
  | .frame u f => if u.val = t then some f else none
  | .vps _ => none

def Arrival.vpsPayload : Arrival → Option (List UInt8)
  | .frame _ _ => none
  | .vps payload => some payload

/-- The frames that come on a stream. -/
def framesOn (arrivals : List Arrival) (t : V3cUnitType) : List RtpFrame :=
  arrivals.filterMap (Arrival.on t)

/-- The VPSs that come. -/
def vpsPayloads (arrivals : List Arrival) : List (List UInt8) :=
  arrivals.filterMap Arrival.vpsPayload

/-- What has come: the NAL units of a stream or the VPSs. -/
def came (arrivals : List Arrival) (t : V3cUnitType) : List (List UInt8) :=
  if t = .vps then vpsPayloads arrivals else (framesOn arrivals t).map (·.payload)

/-! ## Contents -/

/-- The NAL units of each unit of a type, in a file and its map. -/
def contents (file : List UInt8) (map : V3cFileMap) (t : V3cUnitType) : List (List (List UInt8)) :=
  (map.units t).map (·.nalInfos.map (·.slice file))

/-- A type that a GoP has a unit of. -/
def inGop (t : V3cUnitType) : Bool :=
  t = .vps || t.hasStream

/-- How many NAL units a unit has. -/
def nalsPerUnit (maxSize : V3cUnitType → Nat) (t : V3cUnitType) : Nat :=
  if t = .vps then 1 else maxSize t

/-- The size of a unit of these NAL units when it is written, its size field not counted. -/
def unitSize (t : V3cUnitType) (nals : List (List UInt8)) : Nat :=
  4 + (if hasNalPrecisionByte t.code then 1 else 0) + (nals.map List.length).sum +
    nals.length * nalPrecisionOf t

/-- The contents of `n` GoPs, of units of the sizes that are collected, which fit the size fields
that are written. -/
structure Regular (maxSize : V3cUnitType → Nat) (n : Nat)
    (groups : V3cUnitType → List (List (List UInt8))) : Prop where
  maxSize_pos : ∀ t, t.hasStream = true → 1 ≤ maxSize t
  count : ∀ t, inGop t = true → (groups t).length = n
  unit_length : ∀ t, inGop t = true → ∀ nals ∈ groups t, nals.length = nalsPerUnit maxSize t
  vps : ∀ nals ∈ groups .vps, ∀ nal ∈ nals, BeginsWithVps nal ∧ nal.length < 2 ^ 24
  atlas : ∀ nals ∈ groups .ad, ∀ nal ∈ nals, nal.length < 2 ^ 16
  unit_size : ∀ t, t.hasStream = true → ∀ nals ∈ groups t, unitSize t nals < 2 ^ 24

/-! ## Collecting -/

/-- What is known when some frames have come. -/
structure HasCome (maxSize : V3cUnitType → Nat) (done : List Arrival) (m : V3cFileMap) : Prop where
  reachable : Reachable m
  collected : ∀ t, t.hasStream = true → Collected (maxSize t) t (framesOn done t) (m.units t)
  vps : m.vpsUnits = (vpsPayloads done).map vpsUnit

theorem hasCome_initial {maxSize : V3cUnitType → Nat}
    (hmax : ∀ t, t.hasStream = true → 1 ≤ maxSize t) : HasCome maxSize [] initMmap where
  reachable := .init
  collected t ht := collected_initMmap ht (hmax t ht)
  vps := rfl

theorem framesOn_concat (done : List Arrival) (a : Arrival) (t : V3cUnitType) :
    framesOn (done ++ [a]) t = framesOn done t ++ (a.on t).toList := by
  rw [framesOn, List.filterMap_append, List.filterMap_cons, List.filterMap_nil]
  cases a.on t <;> rfl

theorem vpsPayloads_concat (done : List Arrival) (a : Arrival) :
    vpsPayloads (done ++ [a]) = vpsPayloads done ++ a.vpsPayload.toList := by
  rw [vpsPayloads, List.filterMap_append, List.filterMap_cons, List.filterMap_nil]
  cases a.vpsPayload <;> rfl

/-- An arrival never faults, and leaves what is known. -/
theorem HasCome.arrive {maxSize : V3cUnitType → Nat} {done : List Arrival} {m : V3cFileMap}
    (hmax : ∀ t, t.hasStream = true → 1 ≤ maxSize t) (h : HasCome maxSize done m) (a : Arrival) :
    ∃ m', V3c.arrive maxSize m a = .ok m' ∧ HasCome maxSize (done ++ [a]) m' := by
  cases a with
  | frame t frame =>
    obtain ⟨t, ht⟩ := t
    obtain ⟨units, hcopy, hunits⟩ := (h.collected t ht).copyRtpPayload (hmax t ht) frame
    refine ⟨m.setUnits units t, ?_, h.reachable.copy ht hcopy, fun u hu => ?_, ?_⟩
    · change (copyRtpPayload (m.units t) (maxSize t) frame >>= _) = _
      rw [hcopy]
      rfl
    · rw [framesOn_concat, V3cFileMap.units_setUnits]
      by_cases hut : u = t
      · subst hut
        rw [if_pos rfl]
        simpa [Arrival.on] using hunits
      · rw [if_neg hut]
        simpa [Arrival.on, Ne.symm hut] using h.collected u hu
    · have hvps : (m.setUnits units t).vpsUnits = m.vpsUnits := by
        have hunits := V3cFileMap.units_setUnits m units t .vps
        rwa [if_neg (by rintro rfl; cases ht)] at hunits
      rw [vpsPayloads_concat, hvps, h.vps]
      simp [Arrival.vpsPayload]
  | vps payload =>
    refine ⟨_, rfl, h.reachable.vps (n := { size := payload.length, buf := some payload }) rfl
      ⟨payload, rfl, rfl⟩, fun u hu => ?_, ?_⟩
    · rw [framesOn_concat, V3cFileMap.units_setUnits, if_neg (by rintro rfl; cases hu)]
      simpa [Arrival.on] using h.collected u hu
    · rw [vpsPayloads_concat]
      change m.vpsUnits ++ [vpsUnit payload] = _
      rw [h.vps]
      simp [Arrival.vpsPayload]

/-! ## Units by their payloads -/

/-- The NAL units of a unit that has been collected. -/
def V3cUnitInfo.payloads (u : V3cUnitInfo) : List (List UInt8) :=
  u.nalInfos.map NalInfo.payload

section Collected

variable {maxSize : Nat} {t : V3cUnitType} {frames : List RtpFrame} {us : List V3cUnitInfo}

theorem Collected.flatten_payloads (h : Collected maxSize t frames us) :
    (us.map V3cUnitInfo.payloads).flatten = frames.map (·.payload) := by
  have hbufs := congrArg (List.map fun buf => buf.getD []) h.payloads_eq
  rw [List.map_map, List.map_map, List.map_flatMap] at hbufs
  exact hbufs

/-- What has come on a stream tells the first units. -/
theorem Collected.take_payloads (h : Collected maxSize t frames us) (hmax : 1 ≤ maxSize)
    {groups : List (List (List UInt8))} (hgroups : ∀ nals ∈ groups, nals.length = maxSize)
    (hcame : groups.flatten <+: frames.map (·.payload)) :
    (us.take groups.length).map V3cUnitInfo.payloads = groups := by
  rw [← h.flatten_payloads] at hcame
  rw [List.map_take]
  refine take_eq_of_flatten hmax hgroups ?_ ?_ hcame
  · rw [← List.map_dropLast, List.forall_mem_map]
    intro u hu
    rw [V3cUnitInfo.payloads, List.length_map]
    exact (h.full u hu).1
  · obtain ⟨u, hu, hle, -⟩ := h.last
    rw [List.getLast?_map, hu]
    rintro _ ⟨⟩
    rw [V3cUnitInfo.payloads, List.length_map]
    exact hle

/-- A unit with all of its NAL units is ready. -/
theorem Collected.ready_of_length (h : Collected maxSize t frames us) {u : V3cUnitInfo}
    (hu : u ∈ us) (hlength : u.nalInfos.length = maxSize) : u.ready = true := by
  obtain ⟨last, hlast, -, hready⟩ := h.last
  obtain ⟨front, rfl⟩ := List.getLast?_eq_some_iff.mp hlast
  rcases List.mem_append.mp hu with hu | hu
  · have hfront : u ∈ (front ++ [last]).dropLast := by
      rwa [List.dropLast_concat]
    exact (h.full u hfront).2
  · obtain rfl := List.mem_singleton.mp hu
    exact hready.mpr hlength

end Collected

theorem V3cUnitInfo.Packed.writtenSize_eq {u : V3cUnitInfo} {t : V3cUnitType} (h : u.Packed)
    (htype : u.header.vuhUnitType = t.code) :
    u.writtenSize (nalPrecisionOf t) = unitSize t u.payloads := by
  have hsizes : u.nalInfos.map (·.size) = u.payloads.map List.length := by
    rw [V3cUnitInfo.payloads, List.map_map]
    exact List.map_congr_left fun n hn => (h.live n hn).length_payload.symm
  rw [V3cUnitInfo.writtenSize, unitSize, htype, hsizes, V3cUnitInfo.payloads, List.length_map]

/-! ## From file to file -/

/-- In the first units of every type of a GoP are the NAL units of these groups. -/
def Holds (n : Nat) (m : V3cFileMap) (groups : V3cUnitType → List (List (List UInt8))) : Prop :=
  ∀ t, inGop t = true → ((m.units t).take n).map V3cUnitInfo.payloads = groups t

section Transcode

variable {maxSize : V3cUnitType → Nat} {n : Nat} {groups : V3cUnitType → List (List (List UInt8))}
  {arrivals : List Arrival} {m : V3cFileMap}

theorem inGop_of_hasStream {t : V3cUnitType} (ht : t.hasStream = true) : inGop t = true := by
  rw [inGop, ht, Bool.or_true]

/-- What has come is in the first units. -/
theorem HasCome.holds (h : HasCome maxSize arrivals m) (hregular : Regular maxSize n groups)
    (hcame : ∀ t, inGop t = true → (groups t).flatten <+: came arrivals t) :
    Holds n m groups := by
  intro t ht
  have hcount := hregular.count t ht
  have hlength := hregular.unit_length t ht
  have hprefix := hcame t ht
  rw [← hcount]
  by_cases hvps : t = .vps
  · subst hvps
    rw [came, if_pos rfl] at hprefix
    have hunits : (m.units .vps).map V3cUnitInfo.payloads =
        (vpsPayloads arrivals).map fun payload => [payload] := by
      change m.vpsUnits.map V3cUnitInfo.payloads = _
      rw [h.vps, List.map_map]
      rfl
    have hflatten : ((vpsPayloads arrivals).map fun payload => [payload]).flatten =
        vpsPayloads arrivals := by
      rw [← List.flatMap_def, List.flatMap_singleton']
    rw [List.map_take, hunits]
    refine take_eq_of_flatten (Nat.le_refl 1) hlength ?_ ?_ ?_
    · intro block hblock
      obtain ⟨payload, -, rfl⟩ := List.mem_map.mp (List.dropLast_subset _ hblock)
      rfl
    · intro block hblock
      obtain ⟨payload, -, rfl⟩ := List.mem_map.mp (List.mem_of_getLast? hblock)
      exact Nat.le_refl 1
    · rw [hflatten]
      exact hprefix
  · have hstream : t.hasStream = true := by
      simpa [inGop, hvps] using ht
    rw [came, if_neg hvps] at hprefix
    rw [nalsPerUnit, if_neg hvps] at hlength
    exact (h.collected t hstream).take_payloads (hregular.maxSize_pos t hstream) hlength hprefix

/-- There are as many units as groups. -/
theorem Holds.lt_length (h : Holds n m groups) (hregular : Regular maxSize n groups) {i : Nat}
    (hi : i < n) {t : V3cUnitType} (ht : inGop t = true) : i < (m.units t).length := by
  have hlength := congrArg List.length (h t ht)
  rw [hregular.count t ht, List.length_map, List.length_take] at hlength
  omega

/-- The NAL units of a unit are one of the groups. -/
theorem Holds.payloads_mem (h : Holds n m groups) {t : V3cUnitType} (ht : inGop t = true)
    {u : V3cUnitInfo} (hu : u ∈ (m.units t).take n) : u.payloads ∈ groups t := by
  rw [← h t ht]
  exact List.mem_map_of_mem hu

/-- The GoPs are ready. -/
theorem HasCome.ready (h : HasCome maxSize arrivals m) (hregular : Regular maxSize n groups)
    (hholds : Holds n m groups) (hn : n < 2 ^ 64) {i : Nat} (hi : i < n) :
    isGopReady i m = .ok true := by
  rw [isGopReady_eq_true_iff, Nat.mod_eq_of_lt (by omega)]
  refine ⟨Nat.not_lt.mpr (hholds.lt_length hregular hi (t := .vps) rfl), fun t ht => ?_⟩
  have hgop := inGop_of_hasStream ht
  have hlt := hholds.lt_length hregular hi hgop
  refine ⟨(m.units t)[i], List.getElem?_eq_getElem hlt, ?_⟩
  refine (h.collected t ht).ready_of_length (List.getElem_mem hlt) ?_
  have hmem : (m.units t)[i] ∈ (m.units t).take n :=
    List.mem_of_getElem? (i := i)
      (by rw [List.getElem?_take_of_lt hi, List.getElem?_eq_getElem hlt])
  have hlength := hregular.unit_length t hgop _ (hholds.payloads_mem hgop hmem)
  have hne : t ≠ .vps := by
    rintro rfl
    cases ht
  rw [V3cUnitInfo.payloads, List.length_map, nalsPerUnit, if_neg hne] at hlength
  exact hlength

/-- The sizes fit their fields. -/
theorem HasCome.representable (h : HasCome maxSize arrivals m)
    (hregular : Regular maxSize n groups) (hholds : Holds n m groups) : m.Representable n := by
  have hvps (u : V3cUnitInfo) (hu : u ∈ m.vpsUnits.take n) (nal : NalInfo)
      (hnal : nal ∈ u.nalInfos) :
      BeginsWithVps nal.payload ∧ nal.payload.length < 2 ^ 24 :=
    hregular.vps _ (hholds.payloads_mem (t := .vps) rfl hu) _ (List.mem_map_of_mem hnal)
  refine ⟨fun u hu nal hnal => (hvps u hu nal hnal).1, fun u hu nal hnal => ?_,
    fun u hu nal hnal => ?_, fun t ht u hu => ?_⟩
  · obtain ⟨only, hnals, hlive⟩ := h.reachable.vps_nal u (List.mem_of_mem_take hu)
    have hone := hnal
    rw [hnals] at hone
    obtain rfl := List.mem_singleton.mp hone
    rw [← hlive.length_payload]
    exact (hvps u hu nal hnal).2
  · have hpacked := (h.reachable.packed (t := .ad) rfl u (List.mem_of_mem_take hu)).1
    rw [← (hpacked.live nal hnal).length_payload]
    exact hregular.atlas _ (hholds.payloads_mem (t := .ad) rfl hu) _ (List.mem_map_of_mem hnal)
  · obtain ⟨hpacked, htype⟩ := h.reachable.packed ht u (List.mem_of_mem_take hu)
    rw [hpacked.writtenSize_eq htype]
    exact hregular.unit_size t ht _ (hholds.payloads_mem (inGop_of_hasStream ht) hu)

/-- What is written of representable GoPs is read back. -/
theorem read_gopImages {g : Nat → Gop} (hn : 1 ≤ n)
    (hgop : ∀ i < n, m.HasGop i (g i) ∧ (g i).Representable) :
    ∃ map, mmapV3cFile (gopImages g n) (gopImages g n).length {} = .ok (true, map) ∧
      ∀ t, inGop t = true →
        contents (gopImages g n) map t = ((m.units t).take n).map V3cUnitInfo.payloads := by
  choose! us hunits hcontents using fun i (hi : i < n) => (hgop i hi).2.readable
  have hfile : gopImages g n = 64 :: ((List.range n).flatMap us).flatMap ReadableUnit.sized := by
    rw [gopImages_eq hn, List.flatMap_assoc]
    congr 1
    exact List.flatMap_congr fun i hi => (hunits i (List.mem_range.mp hi)).symm
  have hprecision : precisionOf 64 = 3 := rfl
  have hread := ReadableUnit.mmapV3cFile_contents hprecision ((List.range n).flatMap us)
  rw [← hfile, List.map_flatMap,
    List.flatMap_congr fun i hi => hcontents i (List.mem_range.mp hi)] at hread
  obtain ⟨map, hparse, hslices⟩ := hread
  refine ⟨map, hparse, fun t ht => ?_⟩
  rw [contents, hslices t, filter_contents fun i hi => (hgop i hi).1, if_neg]
  · rfl
  · rintro (rfl | rfl) <;> cases ht

end Transcode

/-- A file of one GoP, its atlas unit of two NAL units. -/
def oneGop : List UInt8 :=
  [64, 0, 0, 2, 0, 5, 0, 0, 12, 8, 0, 0, 0, 32, 0, 2, 7, 8, 0, 1, 1, 0, 0, 9, 16, 0, 0, 0, 0, 0, 0,
    1, 9, 0, 0, 8, 24, 0, 0, 0, 0, 0, 0, 0, 0, 0, 11, 32, 0, 0, 0, 0, 0, 0, 3, 1, 2, 3]

/-- Its NAL units as they come, and the first NAL unit of the next GoP. -/
def oneGopArrivals : List Arrival :=
  [.frame ⟨.avd, rfl⟩ ⟨[1, 2, 3]⟩, .frame ⟨.ad, rfl⟩ ⟨[7, 8]⟩, .frame ⟨.ovd, rfl⟩ ⟨[9]⟩,
    .frame ⟨.ad, rfl⟩ ⟨[1]⟩, .vps [0, 5], .frame ⟨.ad, rfl⟩ ⟨[7]⟩, .frame ⟨.gvd, rfl⟩ ⟨[]⟩]

/-- Two NAL units are collected in an atlas unit, one in the others. -/
def oneGopSizes (t : V3cUnitType) : Nat :=
  if t = .ad then 2 else 1

end RtpBenchmarks.V3c
