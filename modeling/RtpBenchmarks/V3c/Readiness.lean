import RtpBenchmarks.V3c.Receive

set_option autoImplicit false

/-!
# V3C: a ready GoP stays as it is (`is_gop_ready`)

Nothing locks a unit that is ready.  It keeps its place and its contents because a payload
only goes to the last unit of its stream, and to a new one once the last is full: with a
constant `max_size` the ready units are exactly the full ones.  So from the moment a GoP
is ready, `reconstruct_v3c_gop` writes the same bytes whenever it is called.
-/

namespace RtpBenchmarks.V3c

open RtpBenchmarks.Foundation
open Relation (ReflTransGen)

/-! ## The steps -/

/-- A payload arrives on a stream, whose units have the size `maxSize t`, or a VPS unit is
appended. -/
inductive CollectStep (maxSize : V3cUnitType → Nat) : V3cFileMap → V3cFileMap → Prop where
  | copy {m : V3cFileMap} {t : V3cUnitType} {frame : RtpFrame} {units : List V3cUnitInfo} :
      t.hasStream = true → copyRtpPayload (m.units t) (maxSize t) frame = .ok units →
      CollectStep maxSize m (m.setUnits units t)
  | vps {m : V3cFileMap} {unit : V3cUnitInfo} :
      CollectStep maxSize m (m.setUnits (m.vpsUnits ++ [unit]) .vps)

/-- What holds of every stream in a reachable state. -/
def AllCollected (maxSize : V3cUnitType → Nat) (m : V3cFileMap) : Prop :=
  ∀ t, t.hasStream = true → ∃ frames, Collected (maxSize t) t frames (m.units t)

section Invariant

variable {maxSize : V3cUnitType → Nat} {m m' : V3cFileMap}

theorem AllCollected.step (hmax : ∀ t, t.hasStream = true → 1 ≤ maxSize t)
    (h : AllCollected maxSize m) (hstep : CollectStep maxSize m m') :
    AllCollected maxSize m' := by
  intro t ht
  cases hstep with
  | @copy t' frame units ht' hcopy =>
    rw [V3cFileMap.units_setUnits]
    split_ifs with heq
    · subst heq
      obtain ⟨frames, hcollected⟩ := h t ht
      obtain ⟨units', hunits', hcollected'⟩ := hcollected.copyRtpPayload (hmax t ht) frame
      rw [hcopy] at hunits'
      cases hunits'
      exact ⟨_, hcollected'⟩
    · exact h t ht
  | vps =>
    rw [V3cFileMap.units_setUnits, if_neg (by rintro rfl; cases ht)]
    exact h t ht

/-- The states that `init_mmap` leads to. -/
theorem allCollected_of_reach (hmax : ∀ t, t.hasStream = true → 1 ≤ maxSize t)
    (h : ReflTransGen (CollectStep maxSize) initMmap m) : AllCollected maxSize m := by
  induction h with
  | refl => exact fun t ht => ⟨[], collected_initMmap ht (hmax t ht)⟩
  | tail _ hstep ih => exact ih.step hmax hstep

end Invariant

/-! ## Ready units -/

/-- A payload leaves every ready unit as it is. -/
theorem Collected.copyRtpPayload_ready {maxSize : Nat} {t : V3cUnitType}
    {frames : List RtpFrame} {us us' : List V3cUnitInfo} {frame : RtpFrame}
    (h : Collected maxSize t frames us) (hcopy : V3c.copyRtpPayload us maxSize frame = .ok us')
    {i : Nat} {u : V3cUnitInfo} (hu : us[i]? = some u) (hready : u.ready = true) :
    us'[i]? = some u := by
  obtain ⟨last, hlast, -, hfull⟩ := h.last
  obtain ⟨us, rfl⟩ := List.getLast?_eq_some_iff.mp hlast
  rw [copyRtpPayload_concat] at hcopy
  split_ifs at hcopy with hmax
  · -- the last unit is full: the payload opens a new one behind it
    cases hcopy
    rw [List.getElem?_append_left (List.getElem?_eq_some_iff.mp hu).1]
    exact hu
  · -- the last unit is not full, and so not ready
    cases hcopy
    have hi : i < us.length := by
      by_contra hge
      have hlen := (List.getElem?_eq_some_iff.mp hu).1
      rw [List.length_append, List.length_singleton] at hlen
      obtain rfl : i = us.length := by omega
      rw [List.getElem?_concat_length] at hu
      cases hu
      exact hmax (hfull.mp hready)
    rw [List.getElem?_append_left hi] at hu ⊢
    exact hu

/-- The two maps have the same units at `i`, the VPS unit apart if it is missing. -/
def FrozenAt (i : Nat) (m m' : V3cFileMap) : Prop :=
  ∀ t, (t = .vps → i < m.vpsUnits.length) → (m'.units t)[i]? = (m.units t)[i]?

section Frozen

variable {maxSize : V3cUnitType → Nat} {m m' : V3cFileMap} {i : Nat}

theorem CollectStep.frozenAt (h : AllCollected maxSize m) (hready : isGopReady i m = .ok true)
    (hstep : CollectStep maxSize m m') : FrozenAt i m m' := by
  intro t hvps
  cases hstep with
  | @copy t' frame units ht' hcopy =>
    rw [V3cFileMap.units_setUnits]
    split_ifs with heq
    · subst heq
      obtain ⟨frames, hcollected⟩ := h t ht'
      obtain ⟨u, hu, huready⟩ := (isGopReady_eq_true_iff.mp hready).2 t ht'
      rw [hu, hcollected.copyRtpPayload_ready hcopy hu huready]
    · rfl
  | vps =>
    rw [V3cFileMap.units_setUnits]
    split_ifs with heq
    · subst heq
      exact List.getElem?_append_left (hvps rfl)
    · rfl

theorem CollectStep.vps_length_le (hstep : CollectStep maxSize m m') :
    m.vpsUnits.length ≤ m'.vpsUnits.length := by
  cases hstep with
  | @copy t frame units ht hcopy =>
    have hvps := V3cFileMap.units_setUnits m units t .vps
    rw [if_neg (by rintro rfl; cases ht)] at hvps
    exact Nat.le_of_eq (congrArg List.length hvps).symm
  | vps => simp [V3cFileMap.setUnits]

/-- A ready GoP stays ready. -/
theorem CollectStep.isGopReady (h : AllCollected maxSize m)
    (hready : isGopReady i m = .ok true) (hstep : CollectStep maxSize m m') :
    V3c.isGopReady i m' = .ok true := by
  have hfrozen := hstep.frozenAt h hready
  have hlen := hstep.vps_length_le
  obtain ⟨hvps, hstreams⟩ := isGopReady_eq_true_iff.mp hready
  refine isGopReady_eq_true_iff.mpr ⟨by omega, fun t ht => ?_⟩
  rw [hfrozen t (by rintro rfl; cases ht)]
  exact hstreams t ht

/-- Any number of steps keep a ready GoP as it is. -/
theorem frozenAt_of_reach (hmax : ∀ t, t.hasStream = true → 1 ≤ maxSize t)
    (hm : ReflTransGen (CollectStep maxSize) initMmap m) (hready : isGopReady i m = .ok true)
    (hm' : ReflTransGen (CollectStep maxSize) m m') :
    isGopReady i m' = .ok true ∧ m.vpsUnits.length ≤ m'.vpsUnits.length ∧ FrozenAt i m m' := by
  induction hm' with
  | refl => exact ⟨hready, Nat.le_refl _, fun _ _ => rfl⟩
  | tail hrun hstep ih =>
    obtain ⟨hready', hlen, hfrozen⟩ := ih
    have hcollected := allCollected_of_reach hmax (hm.trans hrun)
    refine ⟨hstep.isGopReady hcollected hready', hlen.trans hstep.vps_length_le, fun t hvps => ?_⟩
    rw [hstep.frozenAt hcollected hready' t fun ht => Nat.lt_of_lt_of_le (hvps ht) hlen]
    exact hfrozen t hvps

end Frozen

/-! ## Writing a GoP -/

/-- The two maps have the same units at `i`. -/
def SameAt (i : Nat) (m m' : V3cFileMap) : Prop :=
  ∀ t, (m'.units t)[i]? = (m.units t)[i]?

/-- What the caller of `reconstruct_v3c_gop` gets: the size, the buffer and the cursor. -/
def GopWritten.output (w : GopWritten) : Nat × List UInt8 × Nat :=
  (w.gopSize, w.buf, w.ptr)

theorem map_bind_congr {ε α β γ : Type} {x : Except ε α} {f f' : α → Except ε β} {g : β → γ}
    (h : ∀ a, (f a).map g = (f' a).map g) : (x >>= f).map g = (x >>= f').map g := by
  cases x with
  | error e => rfl
  | ok a => exact h a

section Writing

variable {i : Nat} {m m' : V3cFileMap}

theorem SameAt.elementAt (h : SameAt i m m') (t : V3cUnitType) :
    elementAt (m'.units t) i = elementAt (m.units t) i := by
  rw [Foundation.elementAt, Foundation.elementAt, h t]

theorem SameAt.set (h : SameAt i m m') (t : V3cUnitType) (u : V3cUnitInfo) :
    SameAt i (m.setUnits ((m.units t).set i u) t) (m'.setUnits ((m'.units t).set i u) t) := by
  intro t'
  rw [V3cFileMap.units_setUnits, V3cFileMap.units_setUnits]
  split_ifs with heq
  · rw [List.getElem?_set_self', List.getElem?_set_self', h t]
  · exact h t'

/-- A stream unit is written alike, and leaves maps with the same units at `i`. -/
theorem SameAt.createUnitOf_bind {γ : Type} (h : SameAt i m m') {t : V3cUnitType} {q : Nat}
    {buf : List UInt8} {ptr : Nat}
    {f f' : List UInt8 × Nat × V3cFileMap → Except MemFault GopWritten} {g : GopWritten → γ}
    (hf : ∀ buf ptr n n', SameAt i n n' → (f' (buf, ptr, n')).map g = (f (buf, ptr, n)).map g) :
    (createUnitOf t q buf ptr m' i >>= f').map g =
      (createUnitOf t q buf ptr m i >>= f).map g := by
  unfold createUnitOf
  rw [h.elementAt t]
  cases Foundation.elementAt (m.units t) i with
  | error e => rfl
  | ok u =>
    simp only [ok_bind]
    cases createV3cUnit u buf ptr V3C_SIZE_PRECISION q with
    | error e => rfl
    | ok r => exact hf _ _ _ _ (h.set t r.1)

/-- What `reconstruct_v3c_gop` gives its caller depends on the units at its index only. -/
theorem SameAt.reconstructV3cGop (h : SameAt i m m') (hdrByte : Bool) (buf : List UInt8)
    (ptr : Nat) :
    (reconstructV3cGop hdrByte buf ptr m' i).map GopWritten.output =
      (reconstructV3cGop hdrByte buf ptr m i).map GopWritten.output := by
  have hvps : Foundation.elementAt m'.vpsUnits i = Foundation.elementAt m.vpsUnits i :=
    h.elementAt .vps
  have had : Foundation.elementAt m'.adUnits i = Foundation.elementAt m.adUnits i :=
    h.elementAt .ad
  have hovd : Foundation.elementAt m'.ovdUnits i = Foundation.elementAt m.ovdUnits i :=
    h.elementAt .ovd
  have hgvd : Foundation.elementAt m'.gvdUnits i = Foundation.elementAt m.gvdUnits i :=
    h.elementAt .gvd
  have havd : Foundation.elementAt m'.avdUnits i = Foundation.elementAt m.avdUnits i :=
    h.elementAt .avd
  unfold V3c.reconstructV3cGop
  rw [hvps, had, hovd, hgvd, havd]
  refine map_bind_congr fun vps => map_bind_congr fun vpsNal => map_bind_congr fun ad =>
    map_bind_congr fun ovd => map_bind_congr fun gvd => map_bind_congr fun avd =>
    map_bind_congr fun hdr => map_bind_congr fun buf => map_bind_congr fun back =>
    map_bind_congr fun payload => map_bind_congr fun buf => ?_
  refine h.createUnitOf_bind fun buf ptr n n' h => h.createUnitOf_bind fun buf ptr n n' h =>
    h.createUnitOf_bind fun buf ptr n n' h => h.createUnitOf_bind fun buf ptr n n' h => rfl

end Writing

/-- In a reachable state, a GoP that is ready stays ready over any further steps, none of
the units at its index changes, and `reconstruct_v3c_gop` gives its caller the same before
the steps as after them.  The last index of 64 bits is excepted: its successor is 0, so that
the size tests pass without a VPS unit. -/
theorem isGopReady_stable {maxSize : V3cUnitType → Nat}
    (hmax : ∀ t, t.hasStream = true → 1 ≤ maxSize t) {m m' : V3cFileMap}
    (hm : ReflTransGen (CollectStep maxSize) initMmap m)
    (hm' : ReflTransGen (CollectStep maxSize) m m') {i : Nat}
    (hready : isGopReady i m = .ok true) :
    isGopReady i m' = .ok true ∧
      (∀ t u, (m.units t)[i]? = some u → (m'.units t)[i]? = some u) ∧
      (i + 1 < 2 ^ 64 → ∀ hdrByte buf ptr,
        (reconstructV3cGop hdrByte buf ptr m' i).map GopWritten.output =
          (reconstructV3cGop hdrByte buf ptr m i).map GopWritten.output) := by
  obtain ⟨hready', -, hfrozen⟩ := frozenAt_of_reach hmax hm hready hm'
  refine ⟨hready', fun t u hu => ?_, fun hi hdrByte buf ptr => ?_⟩
  · rw [hfrozen t, hu]
    rintro rfl
    exact (List.getElem?_eq_some_iff.mp hu).1
  · have hvps := (isGopReady_eq_true hi hready).1
    exact SameAt.reconstructV3cGop (fun t => hfrozen t fun _ => hvps) hdrByte buf ptr

/-- One payload on each stream and a VPS unit make the first GoP ready; another payload
keeps it so. -/
theorem isGopReady_stable_one : ∃ m m', ReflTransGen (CollectStep fun _ => 1) initMmap m ∧
    isGopReady 0 m = .ok true ∧ isGopReady 0 m' = .ok true ∧ m'.adUnits.length = 2 := by
  have h1 := ReflTransGen.single (@CollectStep.copy (fun _ => 1) initMmap .ad ⟨[7, 8]⟩ _ rfl rfl)
  have h2 := h1.tail (@CollectStep.copy (fun _ => 1) _ .ovd ⟨[7, 8]⟩ _ rfl rfl)
  have h3 := h2.tail (@CollectStep.copy (fun _ => 1) _ .gvd ⟨[7, 8]⟩ _ rfl rfl)
  have h4 := h3.tail (@CollectStep.copy (fun _ => 1) _ .avd ⟨[7, 8]⟩ _ rfl rfl)
  have h5 := h4.tail (@CollectStep.vps (fun _ => 1) _ default)
  have hstable := isGopReady_stable (fun _ _ => Nat.le_refl 1) h5
    (.tail .refl (@CollectStep.copy (fun _ => 1) _ .ad ⟨[9]⟩ _ rfl rfl)) (i := 0) rfl
  exact ⟨_, _, h5, rfl, hstable.1, rfl⟩

end RtpBenchmarks.V3c
