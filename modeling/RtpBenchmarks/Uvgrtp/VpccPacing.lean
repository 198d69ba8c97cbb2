import RtpBenchmarks.Uvgrtp.FullFrames

set_option autoImplicit false

/-!
# Pacing of the V-PCC senders (`uvgrtp/vpcc_sender.cc`, `uvgrtp/vpcc_latency_sender.cc`)

`sender_func` of both programs pushes the NAL units of a stream one after the other.  After
those of a frame it sleeps until the next frame is due: one unit on the atlas and the occupancy
stream, four on the geometry and the attribute stream, where parameter sets do not count.

What the clock shows is given for each iteration.  The time left is a `uint64_t`, but
`std::chrono::microseconds` counts in a signed number: from `2 ^ 63` on it is negative, and
`sleep_for` returns at once.
-/

namespace RtpBenchmarks.Uvgrtp.VpccPacing

open RtpBenchmarks.Foundation
open RtpBenchmarks.Uvgrtp.LatencySender (naluT getCurrentTime)
open RtpBenchmarks.Uvgrtp.VpccLatencySender
  (isParamSet slice slice_eq nalType nalType_eq frameUnits frameUnits_pos loggedCount)
open RtpBenchmarks.V3c (NalInfo V3cUnitInfo V3cUnitType)

/-! ## The code -/

/-- The two programs. -/
inductive Program where
  | vpccSender
  | vpccLatencySender
  deriving DecidableEq, Repr

/-- What the clock shows in an iteration: when the send time is logged, when `push_frame` is
called, when `runtime` is computed, and at the end. -/
structure Readings where
  log : Int
  push : Int
  read : Int
  wake : Int
  deriving DecidableEq, Repr

/-- A NAL unit that has been pushed, with the frame, the time, and the two counters before it. -/
structure Pushed where
  nal : NalInfo
  frame : List UInt8
  time : Int
  currentFrame : Nat
  tempNalu : Nat
  deriving DecidableEq, Repr

/-- The local variables of `sender_func`, what has been pushed, the time, and the argument of
`sleep_for` in the last iteration. -/
structure State where
  currentFrame : Nat := 0
  tempNalu : Nat := 0
  sendTimes : List Int := []
  bytesSent : Nat := 0
  pushed : List Pushed := []
  now : Int
  slept : Option Nat := none
  deriving DecidableEq, Repr

/-- The wait for the next frame: the number of microseconds for which it sleeps. -/
def wait (period : Nat) (start : Int) (currentFrame : Nat) (read : Int) : Option Nat :=
  let runtime := microseconds (read - start)
  let due := currentFrame * period % 2 ^ 64
  if runtime < due then some ((due + 2 ^ 64 - runtime) % 2 ^ 64) else none

/-- The conversion of a `uint64_t` to `std::chrono::microseconds`. -/
def sleepDuration (d : Nat) : Int :=
  (d : Int).bmod (2 ^ 64)

section Code

variable (program : Program) (fmt : V3cUnitType) (bytes : List UInt8) (period : Nat) (start : Int)
  (readings : Nat → Readings)

/-- The body of the inner loop of `sender_func`.  One program logs the send times, the other
counts the bytes. -/
def sendNal (s : State) (i : NalInfo) : Except MemFault State := do
  let r := readings s.pushed.length
  let b ← loadByte bytes i.location
  let paramSet := isParamSet fmt (naluT b)
  let sendTimes :=
    if program = .vpccLatencySender ∧ ¬ paramSet then s.sendTimes ++ [getCurrentTime r.log]
    else s.sendTimes
  let frame ← loadBytes bytes i.location i.size
  let s :=
    { s with
      sendTimes := sendTimes
      pushed := s.pushed ++ [{
        nal := i, frame := frame, time := r.push
        currentFrame := s.currentFrame, tempNalu := s.tempNalu }]
      bytesSent :=
        if program = .vpccSender then (s.bytesSent + i.size) % 2 ^ 64 else s.bytesSent
      now := r.wake
      slept := none }
  if paramSet then
    return s
  let s := { s with tempNalu := s.tempNalu + 1 }
  if (fmt = .gvd ∨ fmt = .avd) ∧ s.tempNalu < 4 then
    return s
  let s := { s with tempNalu := 0, currentFrame := s.currentFrame + 1 }
  return { s with slept := wait period start s.currentFrame r.read }

/-- `sender_func`. -/
def senderFunc (units : List V3cUnitInfo) : Except MemFault State :=
  units.foldlM (fun s p => p.nalInfos.foldlM (sendNal program fmt bytes period start readings) s)
    { now := start }

/-- `sender_func` of `vpcc_sender.cc`. -/
def vpccSenderFunc (units : List V3cUnitInfo) : Except MemFault State :=
  senderFunc .vpccSender fmt bytes period start readings units

/-- `sender_func` of `vpcc_latency_sender.cc`. -/
def vpccLatencySenderFunc (units : List V3cUnitInfo) : Except MemFault State :=
  senderFunc .vpccLatencySender fmt bytes period start readings units

/-- An iteration; `none` where it reads outside the file. -/
def step (s : State) (i : NalInfo) : Option State :=
  (sendNal program fmt bytes period start readings s i).toOption

/-! ## Runs with a clock -/

/-- The clock does not go back in the step, and when it sleeps it does for as long as it is
told to. -/
def Timely (s : State) (i : NalInfo) : Prop :=
  let r := readings s.pushed.length
  s.now ≤ r.log ∧ r.log ≤ r.push ∧ r.push ≤ r.read ∧ r.read ≤ r.wake ∧
    ∀ s' ∈ step program fmt bytes period start readings s i,
      ∀ d ∈ s'.slept, r.read + 1000 * sleepDuration d ≤ r.wake

instance (s : State) (i : NalInfo) :
    Decidable (Timely program fmt bytes period start readings s i) :=
  inferInstanceAs (Decidable (_ ∧ _ ∧ _ ∧ _ ∧ _))

/-- A NAL unit that is no parameter set. -/
def isVcl (n : NalInfo) : Bool :=
  !isParamSet fmt (nalType bytes n)

/-- If the step ends a frame, less than `2 ^ 63` microseconds are left until the next one is
due. -/
def Fits (s : State) (i : NalInfo) : Prop :=
  isVcl fmt bytes i = true → s.tempNalu + 1 = frameUnits fmt →
    (s.currentFrame + 1) * period <
      2 ^ 63 + microseconds ((readings s.pushed.length).read - start)

instance (s : State) (i : NalInfo) : Decidable (Fits fmt bytes period start readings s i) :=
  inferInstanceAs (Decidable (_ → _ → _))

end Code

/-- The NAL units pushed that are no parameter sets, each with its number among all. -/
def vcl (fmt : V3cUnitType) (bytes : List UInt8) (s : State) : List (Pushed × Nat) :=
  s.pushed.zipIdx.filter fun p => isVcl fmt bytes p.1.nal

/-- What the counters and the logs are after the units `done`. -/
structure Counted (program : Program) (fmt : V3cUnitType) (bytes : List UInt8) (period : Nat)
    (start : Int) (readings : Nat → Readings) (done : List NalInfo) (s : State) : Prop where
  order : s.pushed.map (·.nal) = done
  frames : ∀ p ∈ s.pushed, p.frame = slice bytes p.nal
  currentFrame : s.currentFrame = done.countP (isVcl fmt bytes) / frameUnits fmt
  tempNalu : s.tempNalu = done.countP (isVcl fmt bytes) % frameUnits fmt
  places : ∀ j p, (vcl fmt bytes s)[j]? = some p →
    p.1.currentFrame = j / frameUnits fmt ∧ p.1.tempNalu = j % frameUnits fmt
  sendTimes : program = .vpccLatencySender →
    s.sendTimes = (vcl fmt bytes s).map fun p => getCurrentTime (readings p.2).log
  slept : ∀ d ∈ s.slept, (d : Int) =
    s.currentFrame * period - microseconds ((readings (s.pushed.length - 1)).read - start)

/-- No NAL unit is pushed before its frame is due. -/
def OnTime (fmt : V3cUnitType) (bytes : List UInt8) (period : Nat) (start : Int) (s : State) :
    Prop :=
  ∀ j p, (vcl fmt bytes s)[j]? = some p →
    start + 1000 * ((j / frameUnits fmt * period : Nat) : Int) ≤ p.1.time

section Step

variable {program : Program} {fmt : V3cUnitType} {bytes : List UInt8} {period : Nat} {start : Int}
  {readings : Nat → Readings} {s s' : State} {n : NalInfo}

/-- What an iteration pushes and logs. -/
theorem sendNal_pushed (h : sendNal program fmt bytes period start readings s n = .ok s') :
    s'.pushed = s.pushed ++ [{
        nal := n, frame := slice bytes n, time := (readings s.pushed.length).push
        currentFrame := s.currentFrame, tempNalu := s.tempNalu }] ∧
      s'.now = (readings s.pushed.length).wake ∧
      (program = .vpccLatencySender → s'.sendTimes = s.sendTimes ++
        if isVcl fmt bytes n then [getCurrentTime (readings s.pushed.length).log] else []) := by
  unfold sendNal at h
  obtain ⟨b, hb, h⟩ := bind_eq_ok_iff.mp h
  obtain ⟨frame, hframe, h⟩ := bind_eq_ok_iff.mp h
  rw [← nalType_eq hb, ← slice_eq hframe] at h
  dsimp only at h
  have htimes : ∀ (hprogram : program = .vpccLatencySender),
      (if program = .vpccLatencySender ∧ ¬ isParamSet fmt (nalType bytes n) = true then
        s.sendTimes ++ [getCurrentTime (readings s.pushed.length).log] else s.sendTimes) =
      s.sendTimes ++
        if isVcl fmt bytes n then [getCurrentTime (readings s.pushed.length).log] else [] := by
    intro hprogram
    unfold isVcl
    cases isParamSet fmt (nalType bytes n) <;> simp [hprogram]
  split at h
  · cases h
    exact ⟨rfl, rfl, htimes⟩
  · split at h
    · cases h
      exact ⟨rfl, rfl, htimes⟩
    · cases h
      exact ⟨rfl, rfl, htimes⟩

/-- What an iteration does to the counters. -/
theorem sendNal_counters (h : sendNal program fmt bytes period start readings s n = .ok s') :
    (isVcl fmt bytes n = false ∧ s'.currentFrame = s.currentFrame ∧ s'.tempNalu = s.tempNalu ∧
      s'.slept = none) ∨
    (isVcl fmt bytes n = true ∧ s.tempNalu + 1 < frameUnits fmt ∧
      s'.currentFrame = s.currentFrame ∧ s'.tempNalu = s.tempNalu + 1 ∧ s'.slept = none) ∨
    (isVcl fmt bytes n = true ∧ frameUnits fmt ≤ s.tempNalu + 1 ∧
      s'.currentFrame = s.currentFrame + 1 ∧ s'.tempNalu = 0 ∧
      s'.slept = wait period start (s.currentFrame + 1) (readings s.pushed.length).read) := by
  unfold sendNal at h
  obtain ⟨b, hb, h⟩ := bind_eq_ok_iff.mp h
  obtain ⟨frame, -, h⟩ := bind_eq_ok_iff.mp h
  rw [← nalType_eq hb] at h
  dsimp only at h
  unfold isVcl frameUnits
  split at h
  · next hparam =>
    cases h
    exact .inl ⟨by simp [hparam], rfl, rfl, rfl⟩
  · next hparam =>
    have hvcl : (!isParamSet fmt (nalType bytes n)) = true := by simpa using hparam
    split at h
    · next hgroup =>
      cases h
      exact .inr (.inl ⟨hvcl, by rw [if_pos hgroup.1]; exact hgroup.2, rfl, rfl, rfl⟩)
    · next hgroup =>
      cases h
      refine .inr (.inr ⟨hvcl, ?_, rfl, rfl, rfl⟩)
      split
      · next hfmt => exact Nat.le_of_not_lt fun hlt => hgroup ⟨hfmt, hlt⟩
      · exact Nat.le_add_left 1 _

/-- The time left is computed without underflow. -/
theorem wait_eq {currentFrame d : Nat} {read : Int} (hq : currentFrame * period < 2 ^ 64)
    (h : d ∈ wait period start currentFrame read) :
    (d : Int) = currentFrame * period - microseconds (read - start) := by
  have hruntime := microseconds_lt (read - start)
  rw [← Nat.cast_mul]
  unfold wait at h
  dsimp only at h
  generalize currentFrame * period = q at hq h ⊢
  generalize microseconds (read - start) = runtime at hruntime h ⊢
  split at h
  · obtain rfl := Option.some.inj h
    omega
  · cases h

theorem sleepDuration_of_lt {d : Nat} (h : d < 2 ^ 63) : sleepDuration d = d := by
  unfold sleepDuration
  refine Int.bmod_eq_of_le_mul_two ?_ ?_ <;> omega

/-- Behind the wait the next frame is due, unless the time left is too long to be slept. -/
theorem due_le_wake {currentFrame : Nat} {read wake : Int} (hq : currentFrame * period < 2 ^ 64)
    (hstart : start ≤ read) (hread : read ≤ wake)
    (hfits : currentFrame * period < 2 ^ 63 + microseconds (read - start))
    (hsleep : ∀ d ∈ wait period start currentFrame read,
      read + 1000 * sleepDuration d ≤ wake) :
    start + 1000 * ((currentFrame * period : Nat) : Int) ≤ wake := by
  have hruntime : 1000 * (microseconds (read - start) : Int) ≤ read - start := by
    rw [microseconds, Int.tdiv_eq_ediv_of_nonneg (by omega)]
    omega
  cases hwait : wait period start currentFrame read with
  | none =>
    unfold wait at hwait
    dsimp only at hwait
    generalize currentFrame * period = q at *
    split at hwait
    · cases hwait
    · omega
  | some d =>
    have hd := wait_eq hq hwait
    have hwake := hsleep d hwait
    rw [← Nat.cast_mul] at hd
    rw [sleepDuration_of_lt (by omega)] at hwake
    omega

theorem frameUnits_eq (fmt : V3cUnitType) : frameUnits fmt = 1 ∨ frameUnits fmt = 4 := by
  unfold frameUnits
  split
  · exact .inr rfl
  · exact .inl rfl

theorem vcl_pushed {p : Pushed} (h : s'.pushed = s.pushed ++ [p]) :
    vcl fmt bytes s' =
      vcl fmt bytes s ++ if isVcl fmt bytes p.nal then [(p, s.pushed.length)] else [] := by
  rw [vcl, h, List.zipIdx_append, List.filter_append, Nat.zero_add, List.zipIdx_singleton,
    List.filter_singleton]
  cases isVcl fmt bytes p.nal <;> rfl

theorem vcl_getElem? {p : Pushed} {j : Nat} {x : Pushed × Nat}
    (h : s'.pushed = s.pushed ++ [p]) (hx : (vcl fmt bytes s')[j]? = some x) :
    (vcl fmt bytes s)[j]? = some x ∨
      j = (vcl fmt bytes s).length ∧ x = (p, s.pushed.length) := by
  rw [vcl_pushed h, List.getElem?_append] at hx
  split at hx
  · exact .inl hx
  · next hle =>
    split at hx
    · rw [List.getElem?_singleton, Option.ite_none_right_eq_some] at hx
      obtain ⟨hj, hx⟩ := hx
      exact .inr ⟨by omega, (Option.some.inj hx).symm⟩
    · cases hx

theorem length_vcl (s : State) :
    (vcl fmt bytes s).length = (s.pushed.map (·.nal)).countP (isVcl fmt bytes) := by
  rw [vcl, ← List.countP_eq_length_filter, List.countP_map]
  conv_rhs => rw [← List.zipIdx_map_fst 0 s.pushed, List.countP_map]
  rfl

theorem counted_initial :
    Counted program fmt bytes period start readings [] { now := start } where
  order := rfl
  frames p hp := by cases hp
  currentFrame := (Nat.zero_div _).symm
  tempNalu := (Nat.zero_mod _).symm
  places j p hp := by cases hp
  sendTimes _ := rfl
  slept d hd := by cases hd

/-- The counters are the quotient and the remainder of the number of units. -/
theorem counters_step {done : List NalInfo}
    (hframe : s.currentFrame = done.countP (isVcl fmt bytes) / frameUnits fmt)
    (hnalu : s.tempNalu = done.countP (isVcl fmt bytes) % frameUnits fmt)
    (hs : sendNal program fmt bytes period start readings s n = .ok s') :
    s'.currentFrame = (done ++ [n]).countP (isVcl fmt bytes) / frameUnits fmt ∧
      s'.tempNalu = (done ++ [n]).countP (isVcl fmt bytes) % frameUnits fmt := by
  have hunits := frameUnits_eq fmt
  have hcounters := sendNal_counters hs
  rw [List.countP_append, List.countP_singleton]
  generalize done.countP (isVcl fmt bytes) = m at *
  generalize frameUnits fmt = k at *
  rcases hcounters with
    ⟨hvcl, hframe', hnalu', -⟩ | ⟨hvcl, hlt, hframe', hnalu', -⟩ | ⟨hvcl, hle, hframe', hnalu', -⟩
  · rw [hframe', hnalu', hframe, hnalu, hvcl]
    exact ⟨rfl, rfl⟩
  · rw [hframe', hnalu', hframe, hnalu, hvcl, if_pos rfl]
    rcases hunits with rfl | rfl <;> omega
  · rw [hframe', hnalu', hframe, hvcl, if_pos rfl]
    rcases hunits with rfl | rfl <;> omega

/-- An iteration keeps the counters and the logs right. -/
theorem Counted.step {done : List NalInfo}
    (hq : (done ++ [n]).countP (isVcl fmt bytes) / frameUnits fmt * period < 2 ^ 64)
    (h : Counted program fmt bytes period start readings done s)
    (hs : sendNal program fmt bytes period start readings s n = .ok s') :
    Counted program fmt bytes period start readings (done ++ [n]) s' := by
  obtain ⟨hpushed, -, htimes⟩ := sendNal_pushed hs
  obtain ⟨hframe, hnalu⟩ := counters_step h.currentFrame h.tempNalu hs
  have hvcl : vcl fmt bytes s' = _ := vcl_pushed hpushed
  have hlength : (vcl fmt bytes s).length = done.countP (isVcl fmt bytes) := by
    rw [length_vcl, h.order]
  refine ⟨?_, ?_, hframe, hnalu, ?_, ?_, ?_⟩
  · rw [hpushed, List.map_append, h.order]
    rfl
  · rw [hpushed, List.forall_mem_append]
    exact ⟨h.frames, List.forall_mem_singleton.mpr rfl⟩
  · intro j p hp
    rcases vcl_getElem? hpushed hp with hold | ⟨rfl, rfl⟩
    · exact h.places j p hold
    · -- the unit just pushed, with the counters before it
      rw [hlength]
      exact ⟨h.currentFrame, h.tempNalu⟩
  · intro hprogram
    rw [htimes hprogram, h.sendTimes hprogram, hvcl, List.map_append]
    cases isVcl fmt bytes n <;> rfl
  · intro d hd
    have hlast : s'.pushed.length - 1 = s.pushed.length := by
      rw [hpushed, List.length_append, List.length_singleton, Nat.add_sub_cancel]
    rw [hlast]
    rcases sendNal_counters hs with
      ⟨-, -, -, hslept⟩ | ⟨-, -, -, -, hslept⟩ | ⟨-, -, hframe', -, hslept⟩
    · rw [hslept] at hd
      cases hd
    · rw [hslept] at hd
      cases hd
    · rw [hslept, ← hframe'] at hd
      refine wait_eq ?_ hd
      rwa [hframe]

/-- An iteration of a stream that is on time so far is on time. -/
theorem onTime_step {done : List NalInfo}
    (hq : (done ++ [n]).countP (isVcl fmt bytes) / frameUnits fmt * period < 2 ^ 64)
    (h : Counted program fmt bytes period start readings done s)
    (hnow : start + 1000 * ((s.currentFrame * period : Nat) : Int) ≤ s.now)
    (htime : OnTime fmt bytes period start s)
    (hclock : Timely program fmt bytes period start readings s n)
    (hfits : Fits fmt bytes period start readings s n)
    (hs : sendNal program fmt bytes period start readings s n = .ok s') :
    start + 1000 * ((s'.currentFrame * period : Nat) : Int) ≤ s'.now ∧
      OnTime fmt bytes period start s' := by
  obtain ⟨hpushed, hnow', -⟩ := sendNal_pushed hs
  obtain ⟨hlog, hpush, hread, hwake, hsleep⟩ := hclock
  have hsleep' := hsleep s' (toOption_eq_some_iff.mpr hs)
  have hlength : (vcl fmt bytes s).length = done.countP (isVcl fmt bytes) := by
    rw [length_vcl, h.order]
  constructor
  · rw [hnow']
    rcases sendNal_counters hs with
      ⟨-, hframe, -⟩ | ⟨-, -, hframe, -⟩ | ⟨hparam, hle, hframe, -, hslept⟩
    · rw [hframe]
      omega
    · rw [hframe]
      omega
    · have hnalu : s.tempNalu < frameUnits fmt := by
        rw [h.tempNalu]
        exact Nat.mod_lt _ (frameUnits_pos fmt)
      rw [← (counters_step h.currentFrame h.tempNalu hs).1, hframe] at hq
      rw [hslept] at hsleep'
      rw [hframe]
      exact due_le_wake hq (by omega) hwake (hfits hparam (by omega)) hsleep'
  · intro j p hp
    rcases vcl_getElem? hpushed hp with hold | ⟨rfl, rfl⟩
    · exact htime j p hold
    · rw [hlength, ← h.currentFrame]
      exact (hnow.trans hlog).trans hpush

end Step

section Run

variable {program : Program} {fmt : V3cUnitType} {bytes : List UInt8} {period : Nat} {start : Int}
  {readings : Nat → Readings}

/-- The frames of the first units are not more than those of all. -/
theorem frames_le {done rest : List NalInfo}
    (hq : (done ++ rest).countP (isVcl fmt bytes) / frameUnits fmt * period < 2 ^ 64) :
    done.countP (isVcl fmt bytes) / frameUnits fmt * period < 2 ^ 64 := by
  refine (Nat.mul_le_mul_right period (Nat.div_le_div_right ?_)).trans_lt hq
  rw [List.countP_append]
  exact Nat.le_add_right _ _

theorem counted_of_run {done : List NalInfo} {s : State}
    (hq : done.countP (isVcl fmt bytes) / frameUnits fmt * period < 2 ^ 64)
    (hrun : Run (step program fmt bytes period start readings) { now := start } done s) :
    Counted program fmt bytes period start readings done s := by
  induction done using List.reverseRecOn generalizing s with
  | nil =>
    rw [← run_nil.mp hrun]
    exact counted_initial
  | append_singleton done n ih =>
    obtain ⟨mid, hmid, hstep⟩ := run_concat.mp hrun
    exact (ih (frames_le hq) hmid).step hq (toOption_eq_some_iff.mp hstep)

theorem onTime_of_run {done : List NalInfo} {s : State}
    (hq : done.countP (isVcl fmt bytes) / frameUnits fmt * period < 2 ^ 64)
    (hclock : EveryStep (step program fmt bytes period start readings)
      (fun _ s n => Timely program fmt bytes period start readings s n) { now := start } done)
    (hfits : EveryStep (step program fmt bytes period start readings)
      (fun _ s n => Fits fmt bytes period start readings s n) { now := start } done)
    (hrun : Run (step program fmt bytes period start readings) { now := start } done s) :
    start + 1000 * ((s.currentFrame * period : Nat) : Int) ≤ s.now ∧
      OnTime fmt bytes period start s := by
  induction done using List.reverseRecOn generalizing s with
  | nil =>
    rw [← run_nil.mp hrun]
    exact ⟨by simp, fun j p hp => by cases hp⟩
  | append_singleton done n ih =>
    obtain ⟨mid, hmid, hstep⟩ := run_concat.mp hrun
    have hdone := frames_le hq
    obtain ⟨hnow, htime⟩ := ih hdone hclock.of_append hfits.of_append hmid
    exact onTime_step hq (counted_of_run hdone hmid) hnow htime (hclock.last hmid)
      (hfits.last hmid) (toOption_eq_some_iff.mp hstep)

/-- The first unit of a frame, with the entry that is logged for it. -/
theorem Counted.firstOfFrame {done : List NalInfo} {s : State}
    (h : Counted program fmt bytes period start readings done s)
    (hprogram : program = .vpccLatencySender) {k : Nat} {t : Int}
    (ht : s.sendTimes[frameUnits fmt * k]? = some t) :
    ∃ p, (vcl fmt bytes s)[frameUnits fmt * k]? = some p ∧ p.1.currentFrame = k ∧
      p.1.tempNalu = 0 ∧ t = getCurrentTime (readings p.2).log := by
  rw [h.sendTimes hprogram, List.getElem?_map, Option.map_eq_some_iff] at ht
  obtain ⟨p, hp, rfl⟩ := ht
  obtain ⟨hframe, hnalu⟩ := h.places _ p hp
  rw [Nat.mul_div_cancel_left _ (frameUnits_pos fmt)] at hframe
  rw [Nat.mul_mod_right] at hnalu
  exact ⟨p, hp, hframe, hnalu, rfl⟩

/-- `sender_func` goes through the NAL units of all units. -/
theorem senderFunc_eq_ok_iff {units : List V3cUnitInfo} {s : State} :
    senderFunc program fmt bytes period start readings units = .ok s ↔
      Run (step program fmt bytes period start readings) { now := start }
        (units.flatMap (·.nalInfos)) s := by
  rw [senderFunc, ← foldlM_flatMap]
  exact run_toOption.symm

theorem exists_sendNal {n : NalInfo} (s : State)
    (h : n.location < bytes.length ∧ n.location + n.size ≤ bytes.length) :
    ∃ s', sendNal program fmt bytes period start readings s n = .ok s' := by
  unfold sendNal
  rw [loadByte_of_lt h.1, ok_bind, loadBytes_of_le h.2, ok_bind]
  dsimp only
  split
  · exact ⟨_, rfl⟩
  · split
    · exact ⟨_, rfl⟩
    · exact ⟨_, rfl⟩

/-- `sender_func` comes to its end when the NAL units lie in the file. -/
theorem exists_senderFunc {units : List V3cUnitInfo}
    (h : ∀ n ∈ units.flatMap (·.nalInfos),
      n.location < bytes.length ∧ n.location + n.size ≤ bytes.length) :
    ∃ s, senderFunc program fmt bytes period start readings units = .ok s := by
  rw [senderFunc, ← foldlM_flatMap]
  generalize units.flatMap (·.nalInfos) = ns at h
  induction ns using List.reverseRecOn with
  | nil => exact ⟨_, rfl⟩
  | append_singleton ns n ih =>
    obtain ⟨s, hs⟩ := ih fun m hm => h m (List.mem_append_left _ hm)
    obtain ⟨s', hs'⟩ := exists_sendNal s (h n (by simp))
    exact ⟨s', by rw [List.foldlM_append, hs, ok_bind, List.foldlM_cons, hs']; rfl⟩

/-- In every state of every run with a clock the counters and the logs are right, and in every
run in which the time left can be slept no NAL unit is pushed before its frame is due. -/
theorem vpccPacing_run {units : List V3cUnitInfo}
    (hq : loggedCount fmt bytes units / frameUnits fmt * period < 2 ^ 64)
    (hclock : EveryStep (step program fmt bytes period start readings)
      (fun _ s n => Timely program fmt bytes period start readings s n) { now := start }
      (units.flatMap (·.nalInfos))) :
    ((∀ n ∈ units.flatMap (·.nalInfos),
        n.location < bytes.length ∧ n.location + n.size ≤ bytes.length) →
      ∃ s, senderFunc program fmt bytes period start readings units = .ok s ∧
        s.pushed.map (·.nal) = units.flatMap (·.nalInfos)) ∧
    ∀ done rest s, units.flatMap (·.nalInfos) = done ++ rest →
      Run (step program fmt bytes period start readings) { now := start } done s →
      Counted program fmt bytes period start readings done s ∧
      (program = .vpccLatencySender → ∀ k t, s.sendTimes[frameUnits fmt * k]? = some t →
        ∃ p, (vcl fmt bytes s)[frameUnits fmt * k]? = some p ∧ p.1.currentFrame = k ∧
          p.1.tempNalu = 0 ∧ t = getCurrentTime (readings p.2).log) ∧
      (EveryStep (step program fmt bytes period start readings)
          (fun _ s n => Fits fmt bytes period start readings s n) { now := start } done →
        OnTime fmt bytes period start s) := by
  have hcounted : ∀ done rest s, units.flatMap (·.nalInfos) = done ++ rest →
      Run (step program fmt bytes period start readings) { now := start } done s →
      done.countP (isVcl fmt bytes) / frameUnits fmt * period < 2 ^ 64 ∧
        Counted program fmt bytes period start readings done s := by
    intro done rest s hns hrun
    have hall : (done ++ rest).countP (isVcl fmt bytes) / frameUnits fmt * period < 2 ^ 64 := by
      rw [← hns]
      exact hq
    exact ⟨frames_le hall, counted_of_run (frames_le hall) hrun⟩
  refine ⟨fun hfile => ?_, fun done rest s hns hrun => ?_⟩
  · obtain ⟨s, hs⟩ := exists_senderFunc hfile
    exact ⟨s, hs, (hcounted _ [] s (by simp) (senderFunc_eq_ok_iff.mp hs)).2.order⟩
  · obtain ⟨hdone, hcount⟩ := hcounted done rest s hns hrun
    refine ⟨hcount, fun hprogram k t ht => hcount.firstOfFrame hprogram ht, fun hfits => ?_⟩
    exact (onTime_of_run hdone (hns ▸ hclock).of_append hfits hrun).2

end Run

/-! ## The latency sender without its times -/

/-- What the model without a clock knows of a state. -/
def State.untimed (s : State) : VpccLatencySender.SenderState where
  currentFrame := s.currentFrame
  tempNalu := s.tempNalu
  sendTimes := s.sendTimes
  pushed := s.pushed.map (·.frame)

section Untimed

variable {fmt : V3cUnitType} {bytes : List UInt8} {period : Nat} {start : Int}
  {readings : Nat → Readings}

theorem sendNal_untimed {s s' : State} {n : NalInfo}
    (h : sendNal .vpccLatencySender fmt bytes period start readings s n = .ok s') :
    VpccLatencySender.sendNal fmt bytes (fun k => (readings k).log) s.untimed n =
      .ok s'.untimed := by
  unfold sendNal at h
  obtain ⟨b, hb, h⟩ := bind_eq_ok_iff.mp h
  obtain ⟨frame, hframe, h⟩ := bind_eq_ok_iff.mp h
  unfold VpccLatencySender.sendNal
  rw [hb, ok_bind, hframe, ok_bind]
  dsimp only at h
  split at h
  · next hparam =>
    cases h
    refine (if_pos hparam).trans ?_
    simp [State.untimed, hparam]
    rfl
  · next hparam =>
    split at h
    · next hgroup =>
      cases h
      refine (if_neg hparam).trans ((if_pos hgroup).trans ?_)
      simp [State.untimed, hparam]
      rfl
    · next hgroup =>
      cases h
      refine (if_neg hparam).trans ((if_neg hgroup).trans ?_)
      simp [State.untimed, hparam]
      rfl

/-- The latency sender with a clock does what the one without does. -/
theorem senderFunc_untimed {units : List V3cUnitInfo} {s : State}
    (h : vpccLatencySenderFunc fmt bytes period start readings units = .ok s) :
    VpccLatencySender.senderFunc fmt bytes (fun k => (readings k).log) units = .ok s.untimed := by
  rw [vpccLatencySenderFunc, senderFunc, ← foldlM_flatMap] at h
  rw [VpccLatencySender.senderFunc_eq]
  generalize units.flatMap (·.nalInfos) = ns at h ⊢
  induction ns using List.reverseRecOn generalizing s with
  | nil =>
    cases h
    rfl
  | append_singleton ns n ih =>
    rw [List.foldlM_append] at h
    obtain ⟨mid, hmid, h⟩ := bind_eq_ok_iff.mp h
    have hstep : sendNal .vpccLatencySender fmt bytes period start readings mid n = .ok s := by
      simpa using h
    rw [List.foldlM_append, ih hmid, ok_bind, List.foldlM_cons, sendNal_untimed hstep]
    rfl

end Untimed

/-- Two frames of the atlas stream, ten microseconds apart. -/
theorem vpccPacing_run_two :
    ∃ s, vpccLatencySenderFunc .ad [0, 1] 10 0
        (fun k => ⟨10000 * k, 10000 * k, 10000 * k, 10000 * (k + 1)⟩)
        [{ header := default, nalInfos := [{ size := 2 }, { size := 2 }] }] = .ok s ∧
      OnTime .ad [0, 1] 10 0 s := by
  have hrun := @vpccPacing_run .vpccLatencySender .ad [0, 1] 10 0
    (fun k => ⟨10000 * k, 10000 * k, 10000 * k, 10000 * (k + 1)⟩)
    [{ header := default, nalInfos := [{ size := 2 }, { size := 2 }] }]
    (by decide) (by decide +kernel)
  obtain ⟨s, hs, -⟩ := hrun.1 (by decide)
  have hend := hrun.2 _ [] s (by simp) (senderFunc_eq_ok_iff.mp hs)
  exact ⟨s, hs, hend.2.2 (by decide +kernel)⟩

/-- A period of 10 ^ 19 microseconds on the geometry stream: the time left is a negative
duration, and the fifth unit is pushed with the four of the first frame. -/
theorem vpccPacing_negative :
    EveryStep (step .vpccLatencySender .gvd [0, 1] (10 ^ 19) 0 fun _ => ⟨0, 0, 0, 0⟩)
        (fun _ s n => Timely .vpccLatencySender .gvd [0, 1] (10 ^ 19) 0
          (fun _ => ⟨0, 0, 0, 0⟩) s n)
        { now := 0 } (List.replicate 5 { size := 2 }) ∧
      5 / frameUnits .gvd * 10 ^ 19 < 2 ^ 64 ∧
      ∃ s, vpccLatencySenderFunc .gvd [0, 1] (10 ^ 19) 0 (fun _ => ⟨0, 0, 0, 0⟩)
          [{ header := default, nalInfos := List.replicate 5 { size := 2 } }] = .ok s ∧
        ¬ OnTime .gvd [0, 1] (10 ^ 19) 0 s := by
  have hrun : Run (step .vpccLatencySender .gvd [0, 1] (10 ^ 19) 0 fun _ => ⟨0, 0, 0, 0⟩)
      { now := 0 } (List.replicate 5 { size := 2 }) _ := run_get (by decide +kernel)
  refine ⟨by decide +kernel, by decide, _, senderFunc_eq_ok_iff.mpr hrun, fun hon => ?_⟩
  have hlate := hon 4
    ({ nal := { size := 2 }, frame := [0, 1], time := 0, currentFrame := 1, tempNalu := 0 }, 4)
    (by decide +kernel)
  exact absurd hlate (by decide)

end RtpBenchmarks.Uvgrtp.VpccPacing
