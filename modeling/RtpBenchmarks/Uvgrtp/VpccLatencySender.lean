import RtpBenchmarks.Uvgrtp.LatencySender

set_option autoImplicit false

/-!
# V-PCC latency sender (`uvgrtp/vpcc_latency_sender.cc`)

Four threads send the NAL units of the atlas and of the three video streams and log a
send time for each that is not a parameter set; the receive hook of each stream logs a
reception time for each NAL unit that comes back and is not a parameter set.  When the
numbers of send and reception times differ for any stream, the program takes it for frame
loss and writes zeros.

The sender and the hooks decide by different tests what a parameter set is.  The numbers
are what the tests count; over a network that loses nothing they agree exactly where the
tests do.
-/

namespace RtpBenchmarks.Uvgrtp.VpccLatencySender

open RtpBenchmarks.Foundation
open RtpBenchmarks.Uvgrtp.LatencySender (naluT getCurrentTime)
open RtpBenchmarks.V3c (NalInfo RtpFrame V3cFileMap V3cUnitInfo V3cUnitType)
open scoped List

/-! ## The code -/

/-- The local variables of `sender_func`, the send times, and the frames pushed. -/
structure SenderState where
  currentFrame : Nat := 0
  tempNalu : Nat := 0
  sendTimes : List Int := []
  pushed : List (List UInt8) := []
  deriving DecidableEq, Repr, Inhabited

/-- The test of `sender_func` for parameter sets: those of the atlas, else those of a
video. -/
def isParamSet (fmt : V3cUnitType) (naluT : UInt8) : Bool :=
  if fmt = .ad ∧ 35 < naluT then true
  else 32 ≤ naluT ∧ naluT ≤ 34

/-- The body of the inner loop of `sender_func`; at the end of a frame it sleeps.  `clock`
says what the clock reads before each push. -/
def sendNal (fmt : V3cUnitType) (bytes : List UInt8) (clock : Nat → Int) (s : SenderState)
    (i : NalInfo) : Except MemFault SenderState := do
  let b ← loadByte bytes i.location
  let paramSet := isParamSet fmt (naluT b)
  let sendTimes :=
    if paramSet then s.sendTimes else s.sendTimes ++ [getCurrentTime (clock s.pushed.length)]
  let frame ← loadBytes bytes i.location i.size
  let s := { s with sendTimes := sendTimes, pushed := s.pushed ++ [frame] }
  if paramSet then
    return s
  let s := { s with tempNalu := s.tempNalu + 1 }
  if (fmt = .gvd ∨ fmt = .avd) ∧ s.tempNalu < 4 then
    return s
  return { s with tempNalu := 0, currentFrame := s.currentFrame + 1 }

/-- `sender_func`. -/
def senderFunc (fmt : V3cUnitType) (bytes : List UInt8) (clock : Nat → Int)
    (units : List V3cUnitInfo) : Except MemFault SenderState :=
  units.foldlM (fun s p => p.nalInfos.foldlM (sendNal fmt bytes clock) s) {}

/-- The receive hooks, by what they log. -/
def hook (logs : UInt8 → Bool) (recv : List Int) (frame : RtpFrame) (now : Int) :
    Except MemFault (List Int) := do
  let b ← loadByte frame.payload 0
  return if logs (naluT b) then recv ++ [getCurrentTime now] else recv

/-- What `ad_hook` logs. -/
def adLogs (naluT : UInt8) : Bool :=
  naluT < 36

/-- What the hooks of the video streams log. -/
def videoLogs (naluT : UInt8) : Bool :=
  naluT < 32 ∨ 34 < naluT

/-- `ad_hook`. -/
def adHook : List Int → RtpFrame → Int → Except MemFault (List Int) :=
  hook adLogs

/-- `ovd_hook`. -/
def ovdHook : List Int → RtpFrame → Int → Except MemFault (List Int) :=
  hook videoLogs

/-- `gvd_hook`. -/
def gvdHook : List Int → RtpFrame → Int → Except MemFault (List Int) :=
  hook videoLogs

/-- `avd_hook`. -/
def avdHook : List Int → RtpFrame → Int → Except MemFault (List Int) :=
  hook videoLogs

/-- The hook that `sender` installs on a stream. -/
def hookOf (fmt : V3cUnitType) : List Int → RtpFrame → Int → Except MemFault (List Int) :=
  match fmt with
  | .ad => adHook
  | .ovd => ovdHook
  | .gvd => gvdHook
  | .avd => avdHook
  | .vps | .pvd | .cad => fun recv _ _ => pure recv

/-- The calls of a stream's hook, with the time of each. -/
def receive (fmt : V3cUnitType) (arrivals : List (RtpFrame × Int)) :
    Except MemFault (List Int) :=
  arrivals.foldlM (fun recv a => hookOf fmt recv a.1 a.2) []

/-- The check for frame loss at the end of `sender`. -/
def frameLoss (send recv : V3cUnitType → List Int) : Bool :=
  (send .ad).length ≠ (recv .ad).length ∨ (send .ovd).length ≠ (recv .ovd).length ∨
    (send .gvd).length ≠ (recv .gvd).length ∨ (send .avd).length ≠ (recv .avd).length

/-! ## What is logged -/

/-- What the hook of a stream logs. -/
def hookLogs (fmt : V3cUnitType) : UInt8 → Bool :=
  if fmt = .ad then adLogs else videoLogs

theorem hookOf_eq {fmt : V3cUnitType} (h : fmt.hasStream = true) :
    hookOf fmt = hook (hookLogs fmt) := by
  cases fmt with
  | ad | ovd | gvd | avd => rfl
  | vps | pvd | cad => cases h

/-- The hook logs whatever the sender does, and on the atlas stream also the types of the
parameter sets of a video. -/
theorem hookLogs_eq (fmt : V3cUnitType) (t : UInt8) :
    hookLogs fmt t = (!isParamSet fmt t || decide (fmt = .ad ∧ 32 ≤ t ∧ t ≤ 34)) := by
  by_cases hfmt : fmt = .ad
  · simp only [hookLogs, isParamSet, adLogs, hfmt, if_true, true_and, UInt8.lt_iff_toNat_lt,
      UInt8.le_iff_toNat_le, UInt8.reduceToNat]
    by_cases h : 35 < t.toNat
    · have h' : ¬ t.toNat ≤ 34 := by omega
      simp [h, h']
      omega
    · by_cases h' : 32 ≤ t.toNat ∧ t.toNat ≤ 34 <;> simp [h, h'] <;> omega
  · simp only [hookLogs, isParamSet, videoLogs, hfmt, if_false, false_and, decide_false,
      Bool.or_false, UInt8.lt_iff_toNat_lt, UInt8.le_iff_toNat_le, UInt8.reduceToNat]
    by_cases h : 32 ≤ t.toNat ∧ t.toNat ≤ 34 <;> simp [h]; omega

/-- The types of the parameter sets of a video are parameter sets to the sender on every
stream. -/
theorem isParamSet_of_video (fmt : V3cUnitType) {t : UInt8} (h : 32 ≤ t ∧ t ≤ 34) :
    isParamSet fmt t = true := by
  unfold isParamSet
  split
  · rfl
  · simpa using h

/-- The type of a frame. -/
def frameType (frame : List UInt8) : UInt8 :=
  naluT (frame.headD 0)

/-- A NAL unit of the file: it has a header byte and lies in the file. -/
def InFile (bytes : List UInt8) (n : NalInfo) : Prop :=
  0 < n.size ∧ n.location + n.size ≤ bytes.length

instance (bytes : List UInt8) (n : NalInfo) : Decidable (InFile bytes n) :=
  inferInstanceAs (Decidable (_ ∧ _))

/-- The bytes of a NAL unit. -/
def slice (bytes : List UInt8) (n : NalInfo) : List UInt8 :=
  (bytes.drop n.location).take n.size

theorem loadByte_location {bytes : List UInt8} {n : NalInfo} (h : InFile bytes n) :
    loadByte bytes n.location = .ok ((slice bytes n).headD 0) := by
  obtain ⟨hsize, hfile⟩ := h
  obtain ⟨k, hk⟩ := Nat.exists_eq_succ_of_ne_zero hsize.ne'
  have hlt : n.location < bytes.length := by omega
  rw [loadByte_of_lt hlt, slice, hk, take_drop_succ bytes n.location k hlt, List.headD_cons]

theorem slice_ne_nil {bytes : List UInt8} {n : NalInfo} (h : InFile bytes n) :
    slice bytes n ≠ [] := by
  obtain ⟨hsize, hfile⟩ := h
  rw [← List.length_pos_iff, slice, List.length_take, List.length_drop]
  omega

/-- `sender_func` goes through the NAL units of all units. -/
theorem senderFunc_eq (fmt : V3cUnitType) (bytes : List UInt8) (clock : Nat → Int)
    (units : List V3cUnitInfo) :
    senderFunc fmt bytes clock units =
      (units.flatMap (·.nalInfos)).foldlM (sendNal fmt bytes clock) {} := by
  rw [senderFunc, foldlM_flatMap]

/-- What one iteration pushes and logs. -/
theorem sendNal_ok (fmt : V3cUnitType) {bytes : List UInt8} {n : NalInfo}
    (h : InFile bytes n) (clock : Nat → Int) (s : SenderState) :
    ∃ s', sendNal fmt bytes clock s n = .ok s' ∧ s'.pushed = s.pushed ++ [slice bytes n] ∧
      s'.sendTimes.length = s.sendTimes.length +
        if isParamSet fmt (frameType (slice bytes n)) then 0 else 1 := by
  have hload : loadBytes bytes n.location n.size = .ok (slice bytes n) := loadBytes_of_le h.2
  simp only [sendNal, loadByte_location h, ok_bind, hload, frameType]
  by_cases hparam : isParamSet fmt (naluT ((slice bytes n).headD 0)) = true
  · simp only [hparam, if_true]
    exact ⟨_, rfl, rfl, rfl⟩
  · have hvcl : isParamSet fmt (naluT ((slice bytes n).headD 0)) = false := by
      simpa using hparam
    simp only [hvcl, Bool.false_eq_true, if_false]
    split
    · exact ⟨_, rfl, rfl, List.length_append⟩
    · exact ⟨_, rfl, rfl, List.length_append⟩

/-- `sender_func` pushes every NAL unit and logs a send time for those that are no
parameter sets. -/
theorem senderFunc_ok (fmt : V3cUnitType) {bytes : List UInt8} {units : List V3cUnitInfo}
    (h : ∀ n ∈ units.flatMap (·.nalInfos), InFile bytes n) (clock : Nat → Int) :
    ∃ s, senderFunc fmt bytes clock units = .ok s ∧
      s.pushed = (units.flatMap (·.nalInfos)).map (slice bytes) ∧
      s.sendTimes.length = s.pushed.countP (fun f => !isParamSet fmt (frameType f)) := by
  rw [senderFunc_eq]
  generalize units.flatMap (·.nalInfos) = ns at h ⊢
  induction ns using List.reverseRecOn with
  | nil => exact ⟨{}, rfl, rfl, rfl⟩
  | append_singleton ns n ih =>
    obtain ⟨s, hrun, hpushed, htimes⟩ := ih fun m hm => h m (List.mem_append_left _ hm)
    obtain ⟨s', hstep, hpushed', htimes'⟩ := sendNal_ok fmt (h n (by simp)) clock s
    refine ⟨s', ?_, by rw [hpushed', hpushed, List.map_append]; rfl, ?_⟩
    · rw [List.foldlM_append, hrun, ok_bind, List.foldlM_cons, hstep]
      rfl
    · rw [htimes', htimes, hpushed', List.countP_append, List.countP_singleton]
      cases isParamSet fmt (frameType (slice bytes n)) <;> rfl

/-- What one call of the hook logs. -/
theorem hook_ok (logs : UInt8 → Bool) {frame : RtpFrame} (h : frame.payload ≠ [])
    (recv : List Int) (now : Int) :
    ∃ recv', hook logs recv frame now = .ok recv' ∧
      recv'.length = recv.length + if logs (frameType frame.payload) then 1 else 0 := by
  have hbyte : loadByte frame.payload 0 = .ok (frame.payload.headD 0) := by
    obtain ⟨b, rest, hpayload⟩ := List.exists_cons_of_ne_nil h
    rw [hpayload]
    rfl
  refine ⟨_, by rw [hook, hbyte]; rfl, ?_⟩
  change (if logs (frameType frame.payload) then recv ++ [getCurrentTime now]
    else recv).length = _
  split <;> simp

/-- The hook logs a reception time for each frame of the types that it logs. -/
theorem receive_ok {fmt : V3cUnitType} (hfmt : fmt.hasStream = true)
    {arrivals : List (RtpFrame × Int)} (h : ∀ a ∈ arrivals, a.1.payload ≠ []) :
    ∃ recv, receive fmt arrivals = .ok recv ∧
      recv.length = (arrivals.map (·.1.payload)).countP (fun f => hookLogs fmt (frameType f)) := by
  unfold receive
  rw [hookOf_eq hfmt]
  induction arrivals using List.reverseRecOn with
  | nil => exact ⟨[], rfl, rfl⟩
  | append_singleton arrivals a ih =>
    obtain ⟨recv, hrun, hlen⟩ := ih fun b hb => h b (List.mem_append_left _ hb)
    obtain ⟨recv', hstep, hlen'⟩ := hook_ok (hookLogs fmt) (h a (by simp)) recv a.2
    refine ⟨recv', ?_, ?_⟩
    · rw [List.foldlM_append, hrun, ok_bind, List.foldlM_cons, hstep]
      rfl
    · rw [List.map_append, List.countP_append, ← hlen, hlen']
      exact congrArg _ List.countP_singleton.symm

/-- Of two tests of which one implies the other, the weaker counts as many things as the
stronger if and only if it holds of no other. -/
theorem countP_or_eq_iff {α : Type} {p q : α → Bool} {l : List α}
    (hdisjoint : ∀ a, q a → ¬ p a) :
    l.countP p = l.countP (fun a => p a || q a) ↔ ∀ a ∈ l, ¬ q a := by
  induction l with
  | nil => simp
  | cons a l ih =>
    have hle : l.countP p ≤ l.countP (fun a => p a || q a) :=
      List.countP_mono_left fun b _ hb => by simp [hb]
    rw [List.forall_mem_cons, ← ih, List.countP_cons, List.countP_cons]
    have ha := hdisjoint a
    cases hp : p a <;> cases hq : q a <;> simp_all; omega

/-! ## Agreement of the sender and the hooks -/

/-- A NAL unit on which the sender and the hook of the stream agree: no unit of the atlas
stream with a type that in a video would be a parameter set. -/
def Agrees (fmt : V3cUnitType) (bytes : List UInt8) (n : NalInfo) : Prop :=
  fmt = .ad → ¬ (32 ≤ frameType (slice bytes n) ∧ frameType (slice bytes n) ≤ 34)

/-- The sender logs a send time for the NAL unit if and only if the hook logs a reception
time for its frame. -/
def LogsAlike (fmt : V3cUnitType) (bytes : List UInt8) (clock : Nat → Int) (n : NalInfo) :
    Prop :=
  ∀ s recv now, ∃ s' recv', sendNal fmt bytes clock s n = .ok s' ∧
    hookOf fmt recv { payload := slice bytes n } now = .ok recv' ∧
    (s.sendTimes.length < s'.sendTimes.length ↔ recv.length < recv'.length)

theorem logsAlike_iff {fmt : V3cUnitType} {bytes : List UInt8} {n : NalInfo}
    (hfmt : fmt.hasStream = true) (h : InFile bytes n) (clock : Nat → Int) :
    LogsAlike fmt bytes clock n ↔ Agrees fmt bytes n := by
  have key : (isParamSet fmt (frameType (slice bytes n)) = false ↔
      hookLogs fmt (frameType (slice bytes n)) = true) ↔ Agrees fmt bytes n := by
    rw [hookLogs_eq, Agrees]
    have hvideo := isParamSet_of_video fmt (t := frameType (slice bytes n))
    cases hparam : isParamSet fmt (frameType (slice bytes n)) with
    | true => simp
    | false =>
      rw [hparam] at hvideo
      simpa using fun _ hge hle => Bool.false_ne_true (hvideo ⟨hge, hle⟩)
  -- Both logs grow by what their tests say, whatever they hold.
  have hruns : ∀ s recv now, ∃ s' recv', sendNal fmt bytes clock s n = .ok s' ∧
      hookOf fmt recv { payload := slice bytes n } now = .ok recv' ∧
      ((s.sendTimes.length < s'.sendTimes.length ↔ recv.length < recv'.length) ↔
        Agrees fmt bytes n) := by
    intro s recv now
    obtain ⟨s', hsend, -, hsent⟩ := sendNal_ok fmt h clock s
    have hne : ({ payload := slice bytes n } : RtpFrame).payload ≠ [] := slice_ne_nil h
    obtain ⟨recv', hrecv, hlen⟩ := hook_ok (hookLogs fmt) hne recv now
    refine ⟨s', recv', hsend, by rw [hookOf_eq hfmt]; exact hrecv, ?_⟩
    rw [← key, hsent, hlen]
    cases isParamSet fmt (frameType (slice bytes n)) <;>
      cases hookLogs fmt (frameType (slice bytes n)) <;> simp
  constructor
  · intro hlogs
    obtain ⟨s', recv', hsend, hrecv, hiff⟩ := hlogs {} [] 0
    obtain ⟨t', got, hsend', hrecv', hagrees⟩ := hruns {} [] 0
    obtain rfl := Except.ok.inj (hsend.symm.trans hsend')
    obtain rfl := Except.ok.inj (hrecv.symm.trans hrecv')
    exact hagrees.mp hiff
  · intro hagree s recv now
    obtain ⟨s', recv', hsend, hrecv, hiff⟩ := hruns s recv now
    exact ⟨s', recv', hsend, hrecv, hiff.mpr hagree⟩

/-- What a stream has logged when every frame has come back. -/
theorem sizes_eq_iff {fmt : V3cUnitType} {bytes : List UInt8} {ns : List NalInfo}
    {sent : SenderState} {recv : List Int} {frames : List (List UInt8)}
    (hpushed : sent.pushed = ns.map (slice bytes))
    (hsent : sent.sendTimes.length = sent.pushed.countP (fun f => !isParamSet fmt (frameType f)))
    (hrecv : recv.length = frames.countP (fun f => hookLogs fmt (frameType f)))
    (hnet : frames ~ sent.pushed) :
    sent.sendTimes.length = recv.length ↔ ∀ n ∈ ns, Agrees fmt bytes n := by
  rw [hsent, hrecv, hnet.countP_eq, funext fun f => hookLogs_eq fmt (frameType f),
    countP_or_eq_iff, hpushed, List.forall_mem_map]
  · simp [Agrees]
  · intro f hvideo hparam
    have hvideo' := isParamSet_of_video fmt (of_decide_eq_true hvideo).2
    rw [hvideo'] at hparam
    cases hparam

/-- Over a network that loses, duplicates and alters nothing, a stream logs as many
reception times as send times if and only if the sender and the hook agree on each of its
NAL units, and the frame-loss check passes if and only if they do on the atlas stream. -/
theorem vpccLatencySender_frameLoss (bytes : List UInt8) (units : V3cUnitType → List V3cUnitInfo)
    (clock : V3cUnitType → Nat → Int)
    (h : ∀ t, t.hasStream = true → ∀ n ∈ (units t).flatMap (·.nalInfos), InFile bytes n) :
    (∀ t, t.hasStream = true → ∀ n ∈ (units t).flatMap (·.nalInfos),
      (LogsAlike t bytes (clock t) n ↔ Agrees t bytes n)) ∧
    ∃ sent : V3cUnitType → SenderState,
      (∀ t, t.hasStream = true → senderFunc t bytes (clock t) (units t) = .ok (sent t)) ∧
      ∀ arrivals : V3cUnitType → List (RtpFrame × Int),
        (∀ t, t.hasStream = true → (arrivals t).map (·.1.payload) ~ (sent t).pushed) →
        ∃ recv : V3cUnitType → List Int,
          (∀ t, t.hasStream = true → receive t (arrivals t) = .ok (recv t) ∧
            ((sent t).sendTimes.length = (recv t).length ↔
              ∀ n ∈ (units t).flatMap (·.nalInfos), Agrees t bytes n)) ∧
          (frameLoss (fun t => (sent t).sendTimes) recv = false ↔
            ∀ n ∈ (units .ad).flatMap (·.nalInfos), Agrees .ad bytes n) := by
  refine ⟨fun t ht n hn => logsAlike_iff ht (h t ht n hn) (clock t), ?_⟩
  choose! sent hrun hpushed hsent using fun t ht => senderFunc_ok t (h t ht) (clock t)
  refine ⟨sent, hrun, fun arrivals hnet => ?_⟩
  have hpayload : ∀ t, t.hasStream = true → ∀ a ∈ arrivals t, a.1.payload ≠ [] := by
    intro t ht a ha
    have hmem := (hnet t ht).subset (List.mem_map_of_mem ha)
    rw [hpushed t ht] at hmem
    obtain ⟨n, hn, heq⟩ := List.mem_map.mp hmem
    exact heq ▸ slice_ne_nil (h t ht n hn)
  choose! recv hrecv hlen using fun t ht => receive_ok ht (hpayload t ht)
  have hsizes := fun t ht => sizes_eq_iff (hpushed t ht) (hsent t ht) (hlen t ht) (hnet t ht)
  refine ⟨recv, fun t ht => ⟨hrecv t ht, hsizes t ht⟩, ?_⟩
  -- On the video streams the sizes are equal: nothing there is of the atlas.
  have hvideo : ∀ t, t.hasStream = true → t ≠ .ad →
      (sent t).sendTimes.length = (recv t).length := fun t ht hne =>
    (hsizes t ht).mpr fun _ _ had => absurd had hne
  rw [← hsizes .ad rfl]
  simp [frameLoss, hvideo .ovd rfl, hvideo .gvd rfl, hvideo .avd rfl]

/-- A file with a parameter set of the occupancy video, and one NAL unit for the other
streams. -/
theorem vpccLatencySender_frameLoss_two :
    LogsAlike .ovd [0, 1, 64, 2] (fun _ => 0) { location := 2, size := 2 } :=
  ((vpccLatencySender_frameLoss [0, 1, 64, 2]
    (fun t => [{ header := default, nalInfos :=
      [if t = .ovd then { location := 2, size := 2 } else { size := 2 }] }])
    (fun _ _ => 0)
    (by intro t _ n hn; cases t <;> (obtain rfl := List.mem_singleton.mp hn; decide))).1
      .ovd rfl _ (List.mem_singleton.mpr rfl)).mpr (fun h => by cases h)

/-- A NAL unit of type 32 on the atlas stream: the sender takes it for a parameter set of a
video and logs no time, the hook logs one, and the check reports a loss. -/
theorem vpccLatencySender_spurious_loss :
    ∃ sent recv,
      senderFunc .ad [64, 1] (fun _ => 0) [{ header := default, nalInfos := [{ size := 2 }] }] =
        .ok sent ∧
      receive .ad [({ payload := [64, 1] }, 5000)] = .ok recv ∧ [[64, 1]] = sent.pushed ∧
      ¬ LogsAlike .ad [64, 1] (fun _ => 0) { size := 2 } ∧
      frameLoss (fun t => if t = .ad then sent.sendTimes else [])
        (fun t => if t = .ad then recv else []) = true := by
  refine ⟨{ pushed := [[64, 1]] }, [5], by decide, by decide, rfl, ?_, by decide⟩
  intro hlogs
  have hagrees := (logsAlike_iff rfl (by decide) _).mp hlogs
  exact hagrees rfl (by decide)

end RtpBenchmarks.Uvgrtp.VpccLatencySender
