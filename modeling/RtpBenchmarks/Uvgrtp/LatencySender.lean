import RtpBenchmarks.Foundation.Runs
import RtpBenchmarks.Foundation.Scalars
import RtpBenchmarks.V3c.Receive

set_option autoImplicit false

/-!
# uvgRTP latency sender (`uvgrtp/latency_sender.cc`)

The sender records the time in the global `frame_send_time` before it pushes a frame;
the receiver echoes the frames, and `hook_sender`, called for each frame that comes
back, adds the time since `frame_send_time` to the totals of the frame's kind.

The program is a step function: the sender's loop and the calls of the hook take steps
in any order.  A call of the hook says which push has sent its frame; the frame may
come back after later pushes, more than once or never.

`Ledger` is what the totals are for: it keeps the send time of every frame, and adds
for a frame that comes back the time since its own.  A step adds the right latency
exactly when `Current` holds of it, and a run of such steps ends with the ledger's
totals.
-/

namespace RtpBenchmarks.Uvgrtp.LatencySender

open RtpBenchmarks.Foundation
open RtpBenchmarks.V3c (NalInfo RtpFrame)

/-! ## The code -/

/-- The globals `vvc_headers` and `atlas_enabled`. -/
structure Format where
  vvcHeaders : Bool
  atlasEnabled : Bool
  deriving DecidableEq, Repr

/-- The globals after `get_vvc_state` and `get_atlas_state` of the formats. -/
def Format.hevc : Format := { vvcHeaders := false, atlasEnabled := false }

def Format.atlas : Format := { vvcHeaders := false, atlasEnabled := true }

/-- What the hook counts a frame as. -/
inductive NaluKind where
  | inter
  | intra
  | nonVcl
  deriving DecidableEq, Repr

/-- The `switch` for VVC. -/
def vvcKind (b : UInt8) : NaluKind :=
  if b &&& 0x3f = 19 then .intra
  else if b &&& 0x3f = 1 then .inter
  else .nonVcl

/-- The NAL unit type of the atlas and HEVC headers. -/
def naluT (b : UInt8) : UInt8 :=
  (b >>> 1) &&& 0x3f

def atlasKind (b : UInt8) : NaluKind :=
  if naluT b ≤ 15 then .inter
  else if 16 ≤ naluT b ∧ naluT b ≤ 29 then .intra
  else .nonVcl

def hevcKind (b : UInt8) : NaluKind :=
  if naluT b ≤ 15 then .inter
  else if 16 ≤ naluT b ∧ naluT b ≤ 23 then .intra
  else .nonVcl

/-- The header byte that the hook reads, classified; `none` when the payload is too
short for it. -/
def Format.naluKind (format : Format) (payload : List UInt8) : Option NaluKind :=
  if format.vvcHeaders then payload[2]?.map vvcKind
  else if format.atlasEnabled then payload[0]?.map atlasKind
  else payload[4]?.map hevcKind

/-- Where the sender is in its loop: before the next frame, between the recording of
its send time and `push_frame`, or at its end. -/
inductive Phase where
  | next
  | pushing
  | ended
  deriving DecidableEq, Repr

/-- The globals, and the sender's loop: the frames that are left and those pushed. -/
structure State where
  frameSendTime : Int := 0
  frames : Nat := 0
  ninters : Nat := 0
  nintras : Nat := 0
  nNonVcl : Nat := 0
  intraSend : List Int := []
  interSend : List Int := []
  intraRecv : List Int := []
  interRecv : List Int := []
  sendTimes : List Int := []
  afterSendTimes : List Int := []
  recvTimes : List Int := []
  diffTimes : List Nat := []
  total : Nat := 0
  totalIntra : Nat := 0
  totalInter : Nat := 0
  totalFramesReceived : Nat := 0
  queue : List NalInfo
  pushed : List NalInfo := []
  phase : Phase := .next
  deriving DecidableEq, Repr

/-- `get_current_time()`. -/
def getCurrentTime (now : Int) : Int :=
  now.tdiv 1000

theorem getCurrentTime_mono {a b : Int} (h : a ≤ b) : getCurrentTime a ≤ getCurrentTime b :=
  Int.tdiv_le_tdiv (by decide) h

/-- `get_diff()`. -/
def getDiff (s : State) (now : Int) : Nat :=
  microseconds (now - s.frameSendTime)

/-- The updates of the totals and counters for a frame. -/
def addLatency (s : State) (kind : NaluKind) (diff : Nat) : State :=
  match kind with
  | .inter =>
    { s with
      total := (s.total + diff / 1000) % 2 ^ 64
      totalInter := (s.totalInter + diff / 1000) % 2 ^ 64
      ninters := s.ninters + 1
      frames := s.frames + 1 }
  | .intra =>
    { s with
      total := (s.total + diff / 1000) % 2 ^ 64
      totalIntra := (s.totalIntra + diff / 1000) % 2 ^ 64
      nintras := s.nintras + 1
      frames := s.frames + 1 }
  | .nonVcl => s

/-- The updates of the logs: of atlas frames only, and the count of the other HEVC
frames. -/
def logFrame (format : Format) (s : State) (kind : NaluKind) (diff : Nat)
    (now now' : Int) : State :=
  if format.vvcHeaders then s
  else if format.atlasEnabled then
    match kind with
    | .inter =>
      { s with
        interRecv := s.interRecv ++ [getCurrentTime now]
        diffTimes := s.diffTimes ++ [diff]
        recvTimes := s.recvTimes ++ [getCurrentTime now'] }
    | .intra =>
      { s with
        intraRecv := s.intraRecv ++ [getCurrentTime now]
        diffTimes := s.diffTimes ++ [diff]
        recvTimes := s.recvTimes ++ [getCurrentTime now'] }
    | .nonVcl =>
      { s with
        diffTimes := s.diffTimes ++ [0]
        recvTimes := s.recvTimes ++ [getCurrentTime now'] }
  else
    match kind with
    | .nonVcl => { s with nNonVcl := s.nNonVcl + 1 }
    | .inter | .intra => s

/-- `hook_sender`; the clock is read up to three times. -/
def hookSender (format : Format) (s : State) (frame : Option RtpFrame)
    (now now' now'' : Int) : Option State :=
  match frame with
  | none => some s
  | some frame =>
    match format.naluKind frame.payload with
    | none => none
    | some kind =>
      let diff := getDiff s now
      let s := logFrame format (addLatency s kind diff) kind diff now' now''
      some { s with totalFramesReceived := s.totalFramesReceived + 1 }

/-- The frames of a HEVC or VVC file: chunks of the given sizes, one behind the other. -/
def chunks (offset : Nat) : List Nat → List NalInfo
  | [] => []
  | size :: sizes => { location := offset, size } :: chunks (offset + size) sizes

/-- The frames that `sender` goes through. -/
def framesToSend (format : Format) (map : V3c.V3cFileMap) (chunkSizes : List Nat) :
    List NalInfo :=
  if format.atlasEnabled then map.adUnits.flatMap (·.nalInfos) else chunks 0 chunkSizes

/-- The test at the start of the loop body: in atlas mode a frame of another kind than
inter and intra is skipped.  `none` when its first byte is not in the file. -/
def skipped (format : Format) (mem : List UInt8) (frame : NalInfo) : Option Bool :=
  if format.atlasEnabled then mem[frame.location]?.map fun b => 30 ≤ naluT b
  else some false

/-- The recording of the send time before `push_frame`. -/
def recordSendTime (format : Format) (mem : List UInt8) (s : State) (frame : NalInfo)
    (now now' : Int) : State :=
  let s := { s with frameSendTime := now, phase := .pushing }
  if format.atlasEnabled then
    let s := { s with sendTimes := s.sendTimes ++ [getCurrentTime now'] }
    match mem[frame.location]?.map atlasKind with
    | some .inter => { s with interSend := s.interSend ++ [getCurrentTime now'] }
    | some .intra => { s with intraSend := s.intraSend ++ [getCurrentTime now'] }
    | _ => s
  else s

/-- What follows a successful `push_frame`; the sleep that follows only delays the next
step. -/
def afterPush (format : Format) (s : State) (frame : NalInfo) (rest : List NalInfo)
    (now : Int) : State :=
  let s := { s with pushed := s.pushed ++ [frame], queue := rest, phase := .next }
  if format.atlasEnabled then
    { s with afterSendTimes := s.afterSendTimes ++ [getCurrentTime now] }
  else s

/-- An atomic step: of the sender's loop, or a call of the hook for the frame that push
`k` has sent. -/
inductive Event where
  | skip
  | record (now now' : Int)
  | push (ok : Bool) (now : Int)
  | hook (k : Nat) (frame : Option RtpFrame) (now now' now'' : Int)
  deriving DecidableEq, Repr

/-- A step of the program; `none` where it cannot be taken. -/
def step (format : Format) (mem : List UInt8) (s : State) : Event → Option State
  | .skip =>
    match s.phase, s.queue with
    | .next, frame :: rest =>
      if skipped format mem frame = some true then some { s with queue := rest } else none
    | _, _ => none
  | .record now now' =>
    match s.phase, s.queue with
    | .next, frame :: _ =>
      if skipped format mem frame = some false then
        some (recordSendTime format mem s frame now now')
      else none
    | _, _ => none
  | .push ok now =>
    match s.phase, s.queue with
    | .pushing, frame :: rest =>
      some (if ok then afterPush format s frame rest now else { s with phase := .ended })
    | _, _ => none
  | .hook k frame now now' now'' =>
    if k < s.pushed.length then hookSender format s frame now now' now'' else none

/-- The state before the sender's loop. -/
def initial (format : Format) (map : V3c.V3cFileMap) (chunkSizes : List Nat) : State :=
  { queue := framesToSend format map chunkSizes }

/-! ## What the totals are for -/

/-- The latency of a frame in milliseconds. -/
def latencyMs (sent now : Int) : Nat :=
  microseconds (now - sent) / 1000

/-- The send times of all frames, and the totals of the latencies since these. -/
structure Ledger where
  sendTimes : List Int := []
  total : Nat := 0
  totalIntra : Nat := 0
  totalInter : Nat := 0

/-- Count a frame that has come back. -/
def Ledger.add (l : Ledger) (kind : NaluKind) (ms : Nat) : Ledger :=
  match kind with
  | .inter => { l with total := l.total + ms, totalInter := l.totalInter + ms }
  | .intra => { l with total := l.total + ms, totalIntra := l.totalIntra + ms }
  | .nonVcl => l

/-- What an event means for the ledger. -/
def Ledger.step (format : Format) (l : Ledger) : Event → Ledger
  | .record now _ => { l with sendTimes := l.sendTimes ++ [now] }
  | .hook k (some frame) now _ _ =>
    match format.naluKind frame.payload, l.sendTimes[k]? with
    | some kind, some sent => l.add kind (latencyMs sent now)
    | _, _ => l
  | .skip | .push _ _ | .hook _ none _ _ _ => l

/-- The ledger after some events. -/
def ledger (format : Format) (evs : List Event) : Ledger :=
  evs.foldl (Ledger.step format) {}

theorem ledger_concat (format : Format) (evs : List Event) (e : Event) :
    ledger format (evs ++ [e]) = (ledger format evs).step format e := by
  simp [ledger]

@[simp] theorem Ledger.add_sendTimes (l : Ledger) (kind : NaluKind) (ms : Nat) :
    (l.add kind ms).sendTimes = l.sendTimes := by
  cases kind <;> rfl

/-- Only the recording of a send time adds one. -/
theorem Ledger.step_hook_sendTimes (format : Format) (l : Ledger) (k : Nat)
    (frame : Option RtpFrame) (now now' now'' : Int) :
    (l.step format (.hook k frame now now' now'')).sendTimes = l.sendTimes := by
  cases frame with
  | none => rfl
  | some frame =>
    simp only [Ledger.step]
    split
    · exact l.add_sendTimes _ _
    · rfl

/-! ## What a step does -/

/-- The totals go up by the latency `ms` of a frame of the given kind. -/
def AddsLatency (s s' : State) (kind : NaluKind) (ms : Nat) : Prop :=
  match kind with
  | .inter => s'.total = (s.total + ms) % 2 ^ 64 ∧
      s'.totalInter = (s.totalInter + ms) % 2 ^ 64 ∧ s'.totalIntra = s.totalIntra
  | .intra => s'.total = (s.total + ms) % 2 ^ 64 ∧
      s'.totalIntra = (s.totalIntra + ms) % 2 ^ 64 ∧ s'.totalInter = s.totalInter
  | .nonVcl => s'.total = s.total ∧ s'.totalIntra = s.totalIntra ∧
      s'.totalInter = s.totalInter

/-- A frame of a kind that is counted adds one latency. -/
theorem AddsLatency.unique {s s' : State} {kind : NaluKind} (hkind : kind ≠ .nonVcl)
    {ms ms' : Nat} (hms : ms < 2 ^ 64) (hms' : ms' < 2 ^ 64)
    (h : AddsLatency s s' kind ms) (h' : AddsLatency s s' kind ms') : ms = ms' := by
  have htotal : (s.total + ms) % 2 ^ 64 = (s.total + ms') % 2 ^ 64 := by
    cases kind with
    | inter => exact h.1.symm.trans h'.1
    | intra => exact h.1.symm.trans h'.1
    | nonVcl => exact absurd rfl hkind
  omega

theorem latencyMs_lt (sent now : Int) : latencyMs sent now < 2 ^ 64 :=
  Nat.lt_of_le_of_lt (Nat.div_le_self _ _) (microseconds_lt _)

/-- The fields that the hook leaves to the sender. -/
structure SameSending (s s' : State) : Prop where
  frameSendTime : s'.frameSendTime = s.frameSendTime
  pushed : s'.pushed = s.pushed
  phase : s'.phase = s.phase

theorem addLatency_sending (s : State) (kind : NaluKind) (diff : Nat) :
    SameSending s (addLatency s kind diff) := by
  cases kind <;> exact ⟨rfl, rfl, rfl⟩

theorem logFrame_sending (format : Format) (s : State) (kind : NaluKind) (diff : Nat)
    (now now' : Int) : SameSending s (logFrame format s kind diff now now') := by
  unfold logFrame
  split_ifs <;> cases kind <;> exact ⟨rfl, rfl, rfl⟩

/-- The logs have no part in the totals. -/
theorem logFrame_totals (format : Format) (s : State) (kind : NaluKind) (diff : Nat)
    (now now' : Int) :
    (logFrame format s kind diff now now').total = s.total ∧
      (logFrame format s kind diff now now').totalIntra = s.totalIntra ∧
      (logFrame format s kind diff now now').totalInter = s.totalInter := by
  unfold logFrame
  split_ifs <;> cases kind <;> exact ⟨rfl, rfl, rfl⟩

theorem hookSender_sending {format : Format} {s s' : State} {frame : Option RtpFrame}
    {now now' now'' : Int} (h : hookSender format s frame now now' now'' = some s') :
    SameSending s s' := by
  cases frame with
  | none =>
    cases h
    exact ⟨rfl, rfl, rfl⟩
  | some frame =>
    simp only [hookSender] at h
    split at h
    · cases h
    · next kind _ =>
      cases h
      have hadd := addLatency_sending s kind (getDiff s now)
      have hlog := logFrame_sending format (addLatency s kind (getDiff s now)) kind
        (getDiff s now) now' now''
      exact ⟨hlog.frameSendTime.trans hadd.frameSendTime, hlog.pushed.trans hadd.pushed,
        hlog.phase.trans hadd.phase⟩

/-- The hook adds the time since the send time recorded last. -/
theorem hookSender_adds {format : Format} {s s' : State} {frame : RtpFrame}
    {now now' now'' : Int} {kind : NaluKind}
    (hkind : format.naluKind frame.payload = some kind)
    (h : hookSender format s (some frame) now now' now'' = some s') :
    AddsLatency s s' kind (latencyMs s.frameSendTime now) := by
  simp only [hookSender, hkind, Option.some.injEq] at h
  subst h
  obtain ⟨htotal, hintra, hinter⟩ := logFrame_totals format (addLatency s kind (getDiff s now))
    kind (getDiff s now) now' now''
  cases kind with
  | inter => exact ⟨htotal, hinter, hintra⟩
  | intra => exact ⟨htotal, hintra, hinter⟩
  | nonVcl => exact ⟨htotal, hintra, hinter⟩

/-- The sender's steps leave the totals as they are. -/
structure SameTotals (s s' : State) : Prop where
  total : s'.total = s.total
  totalIntra : s'.totalIntra = s.totalIntra
  totalInter : s'.totalInter = s.totalInter

theorem recordSendTime_totals (format : Format) (mem : List UInt8) (s : State)
    (frame : NalInfo) (now now' : Int) :
    SameTotals s (recordSendTime format mem s frame now now') := by
  simp only [recordSendTime]
  split
  · split <;> exact ⟨rfl, rfl, rfl⟩
  · exact ⟨rfl, rfl, rfl⟩

theorem recordSendTime_sending (format : Format) (mem : List UInt8) (s : State)
    (frame : NalInfo) (now now' : Int) :
    SameSending { s with frameSendTime := now, phase := .pushing }
      (recordSendTime format mem s frame now now') := by
  simp only [recordSendTime]
  split
  · split <;> exact ⟨rfl, rfl, rfl⟩
  · exact ⟨rfl, rfl, rfl⟩

/-- The steps of the program, one constructor for each thing that can happen. -/
inductive Steps (format : Format) (mem : List UInt8) (s : State) : Event → State → Prop where
  | skipped {rest : List NalInfo} : Steps format mem s .skip { s with queue := rest }
  | recorded {frame : NalInfo} {now now' : Int} (hp : s.phase = .next) :
      Steps format mem s (.record now now') (recordSendTime format mem s frame now now')
  | pushed {frame : NalInfo} {rest : List NalInfo} {now : Int} (hp : s.phase = .pushing) :
      Steps format mem s (.push true now) (afterPush format s frame rest now)
  | failed {now : Int} (hp : s.phase = .pushing) :
      Steps format mem s (.push false now) { s with phase := .ended }
  | called {k : Nat} {frame : Option RtpFrame} {now now' now'' : Int} {s' : State}
      (hk : k < s.pushed.length) (h : hookSender format s frame now now' now'' = some s') :
      Steps format mem s (.hook k frame now now' now'') s'

theorem steps_of_step {format : Format} {mem : List UInt8} {s s' : State} {e : Event}
    (h : step format mem s e = some s') : Steps format mem s e s' := by
  cases e with
  | skip =>
    simp only [step] at h
    split at h
    · split_ifs at h
      cases h
      exact .skipped
    · cases h
  | record now now' =>
    simp only [step] at h
    split at h
    · next hp _ =>
      split_ifs at h
      cases h
      exact .recorded hp
    · cases h
  | push ok now =>
    simp only [step] at h
    split at h
    · next hp _ =>
      cases h
      cases ok with
      | true => exact .pushed hp
      | false => exact .failed hp
    · cases h
  | hook k frame now now' now'' =>
    simp only [step, Option.ite_none_right_eq_some] at h
    exact .called h.1 h.2

/-! ## The ledger's send times -/

/-- `frame_send_time` is the send time recorded last, and there is one send time for
each frame pushed, and one more once the next is recorded. -/
structure Recorded (l : Ledger) (s : State) : Prop where
  last : s.frameSendTime = l.sendTimes.getLast?.getD 0
  count : l.sendTimes.length = s.pushed.length + if s.phase = .next then 0 else 1

theorem recorded_initial (format : Format) (map : V3c.V3cFileMap) (chunkSizes : List Nat) :
    Recorded (ledger format []) (initial format map chunkSizes) :=
  ⟨rfl, rfl⟩

theorem Recorded.step {format : Format} {mem : List UInt8} {l : Ledger} {s s' : State}
    {e : Event} (h : Recorded l s) (hs : Steps format mem s e s') :
    Recorded (l.step format e) s' := by
  cases hs with
  | skipped => exact ⟨h.last, h.count⟩
  | @recorded frame now now' hp =>
    have hsame := recordSendTime_sending format mem s frame now now'
    have hcount := h.count
    rw [if_pos hp] at hcount
    constructor
    · rw [hsame.frameSendTime]
      simp [Ledger.step]
    · rw [hsame.pushed, hsame.phase]
      simp [Ledger.step, hcount]
  | @pushed frame rest now hp =>
    have hcount := h.count
    rw [hp, if_neg (by decide)] at hcount
    have hlast : (afterPush format s frame rest now).frameSendTime = s.frameSendTime := by
      simp only [afterPush]
      split <;> rfl
    have hpushed : (afterPush format s frame rest now).pushed = s.pushed ++ [frame] := by
      simp only [afterPush]
      split <;> rfl
    have hphase : (afterPush format s frame rest now).phase = .next := by
      simp only [afterPush]
      split <;> rfl
    exact ⟨hlast.trans h.last, by simp [Ledger.step, hpushed, hphase, hcount]⟩
  | failed hp =>
    have hcount := h.count
    rw [hp, if_neg (by decide)] at hcount
    exact ⟨h.last, hcount⟩
  | called hk hcall =>
    have hsame := hookSender_sending hcall
    refine ⟨?_, ?_⟩
    · rw [hsame.frameSendTime, Ledger.step_hook_sendTimes]
      exact h.last
    · rw [hsame.pushed, hsame.phase, Ledger.step_hook_sendTimes]
      exact h.count

theorem recorded_of_run {format : Format} {mem : List UInt8} {map : V3c.V3cFileMap}
    {chunkSizes : List Nat} {evs : List Event} {s : State}
    (hrun : Run (step format mem) (initial format map chunkSizes) evs s) :
    Recorded (ledger format evs) s := by
  refine Run.invariant (I := fun done s => Recorded (ledger format done) s)
    (recorded_initial format map chunkSizes) ?_ hrun
  intro done mid e mid' _ h hs
  rw [ledger_concat]
  exact h.step (steps_of_step hs)

/-! ## When the latencies are right -/

/-- The step, if it is a call of the hook, adds the latency since the send time of its
frame. -/
def RightLatency (format : Format) (mem : List UInt8) (done : List Event) (s : State)
    (e : Event) : Prop :=
  match e with
  | .hook k (some frame) now _ _ =>
    ∀ kind sent s', format.naluKind frame.payload = some kind →
      (ledger format done).sendTimes[k]? = some sent → step format mem s e = some s' →
      AddsLatency s s' kind (latencyMs sent now)
  | _ => True

/-- The step, if it is a call of the hook for a frame that is counted, comes as many
whole milliseconds after the send time recorded last as after that of its frame. -/
def Current (format : Format) (done : List Event) (e : Event) : Prop :=
  match e with
  | .hook k (some frame) now _ _ =>
    format.naluKind frame.payload ≠ some .nonVcl →
      ∀ sent last, (ledger format done).sendTimes[k]? = some sent →
        (ledger format done).sendTimes.getLast? = some last →
        latencyMs last now = latencyMs sent now
  | _ => True

/-- In particular when no send time has been recorded since. -/
theorem current_of_last {format : Format} {done : List Event} {k : Nat}
    {frame : Option RtpFrame} {now now' now'' : Int}
    (hk : (ledger format done).sendTimes.length = k + 1) :
    Current format done (.hook k frame now now' now'') := by
  cases frame with
  | none => trivial
  | some frame =>
    intro _ sent last hsent hlast
    rw [List.getLast?_eq_getElem?, hk, Nat.add_sub_cancel, hsent] at hlast
    cases hlast
    rfl

/-- A send time recorded a millisecond or more after that of the frame makes its
latency too small. -/
theorem latencyMs_lt_of_later {sent last now : Int} (hlast : sent + 1000000 ≤ last)
    (hnow : last ≤ now) (hfit : now - sent < 2 ^ 63) :
    latencyMs last now < latencyMs sent now := by
  have h₁ := microseconds_of_nonneg (d := now - last) (by omega) (by omega)
  have h₂ := microseconds_of_nonneg (d := now - sent) (by omega) (by omega)
  unfold latencyMs
  omega

/-- A frame that comes back after such a send time has been recorded is not counted with
its latency. -/
theorem not_current_of_later {format : Format} {done : List Event} {k : Nat}
    {frame : RtpFrame} {now now' now'' sent last : Int}
    (hkind : format.naluKind frame.payload ≠ some .nonVcl)
    (hsent : (ledger format done).sendTimes[k]? = some sent)
    (hlast : (ledger format done).sendTimes.getLast? = some last)
    (hlater : sent + 1000000 ≤ last) (hnow : last ≤ now) (hfit : now - sent < 2 ^ 63) :
    ¬ Current format done (.hook k (some frame) now now' now'') := by
  intro h
  have hlt := latencyMs_lt_of_later hlater hnow hfit
  rw [h hkind sent last hsent hlast] at hlt
  exact Nat.lt_irrefl _ hlt

/-- What the hook adds, and what it should. -/
theorem Recorded.called {format : Format} {l : Ledger} {s s' : State} (h : Recorded l s)
    {k : Nat} {frame : RtpFrame} {now now' now'' : Int} (hk : k < s.pushed.length)
    (hcall : hookSender format s (some frame) now now' now'' = some s') :
    ∃ kind sent last, format.naluKind frame.payload = some kind ∧
      l.sendTimes[k]? = some sent ∧ l.sendTimes.getLast? = some last ∧
      AddsLatency s s' kind (latencyMs last now) := by
  have hlen : k < l.sendTimes.length := by
    rw [h.count]
    omega
  obtain ⟨last, hlast⟩ : ∃ last, l.sendTimes.getLast? = some last :=
    ⟨_, List.getLast?_eq_some_getLast (List.ne_nil_of_length_pos (Nat.zero_lt_of_lt hlen))⟩
  cases hkind : format.naluKind frame.payload with
  | none => simp [hookSender, hkind] at hcall
  | some kind =>
    refine ⟨kind, l.sendTimes[k], last, rfl, List.getElem?_eq_getElem hlen, hlast, ?_⟩
    have hadds := hookSender_adds hkind hcall
    rw [h.last, hlast] at hadds
    exact hadds

/-- A step of a run adds the right latency if and only if it is current. -/
theorem rightLatency_iff {format : Format} {mem : List UInt8} {done : List Event}
    {s s' : State} {e : Event} (h : Recorded (ledger format done) s)
    (hs : step format mem s e = some s') :
    RightLatency format mem done s e ↔ Current format done e := by
  have hsteps := steps_of_step hs
  cases hsteps with
  | skipped | recorded | pushed | failed => exact Iff.rfl
  | @called k frame now now' now'' s' hk hcall =>
    cases frame with
    | none => exact Iff.rfl
    | some frame =>
      obtain ⟨kind, sent, last, hkind, hsent, hlast, hadds⟩ := h.called hk hcall
      constructor
      · intro hright hvcl sent' last' hsent' hlast'
        rw [hsent] at hsent'
        rw [hlast] at hlast'
        cases hsent'
        cases hlast'
        have hne : kind ≠ .nonVcl := by
          rintro rfl
          exact hvcl hkind
        exact AddsLatency.unique hne (latencyMs_lt _ _) (latencyMs_lt _ _) hadds
          (hright kind sent s' hkind hsent hs)
      · intro hcurrent kind' sent' t hkind' hsent' ht
        rw [hkind] at hkind'
        rw [hsent] at hsent'
        rw [hs] at ht
        cases hkind'
        cases hsent'
        cases ht
        by_cases hvcl : kind = .nonVcl
        · subst hvcl
          exact hadds
        · rw [← hcurrent (by simp [hkind, hvcl]) sent last hsent hlast]
          exact hadds

/-- The totals are the ledger's. -/
structure Agrees (l : Ledger) (s : State) : Prop where
  total : s.total = l.total % 2 ^ 64
  totalIntra : s.totalIntra = l.totalIntra % 2 ^ 64
  totalInter : s.totalInter = l.totalInter % 2 ^ 64

/-- The hook and the ledger add the same latency. -/
theorem Agrees.add {l : Ledger} {s s' : State} (h : Agrees l s) {kind : NaluKind} {ms : Nat}
    (hadds : AddsLatency s s' kind ms) : Agrees (l.add kind ms) s' := by
  have hsum : ∀ a b : Nat, a = b % 2 ^ 64 → (a + ms) % 2 ^ 64 = (b + ms) % 2 ^ 64 := by
    intro a b hab
    rw [hab, Nat.mod_add_mod]
  cases kind with
  | inter =>
    exact ⟨hadds.1.trans (hsum _ _ h.total), hadds.2.2.trans h.totalIntra,
      hadds.2.1.trans (hsum _ _ h.totalInter)⟩
  | intra =>
    exact ⟨hadds.1.trans (hsum _ _ h.total), hadds.2.1.trans (hsum _ _ h.totalIntra),
      hadds.2.2.trans h.totalInter⟩
  | nonVcl =>
    exact ⟨hadds.1.trans h.total, hadds.2.1.trans h.totalIntra, hadds.2.2.trans h.totalInter⟩

/-- A step with the right latency keeps the totals those of the ledger. -/
theorem Agrees.step {format : Format} {mem : List UInt8} {done : List Event} {s s' : State}
    {e : Event} (h : Agrees (ledger format done) s) (hrec : Recorded (ledger format done) s)
    (hright : RightLatency format mem done s e) (hs : step format mem s e = some s') :
    Agrees ((ledger format done).step format e) s' := by
  have hsteps := steps_of_step hs
  cases hsteps with
  | skipped => exact ⟨h.total, h.totalIntra, h.totalInter⟩
  | @recorded frame now now' hp =>
    have hsame := recordSendTime_totals format mem s frame now now'
    exact ⟨hsame.total.trans h.total, hsame.totalIntra.trans h.totalIntra,
      hsame.totalInter.trans h.totalInter⟩
  | @pushed frame rest now hp =>
    have hsame : SameTotals s (afterPush format s frame rest now) := by
      simp only [afterPush]
      split <;> exact ⟨rfl, rfl, rfl⟩
    exact ⟨hsame.total.trans h.total, hsame.totalIntra.trans h.totalIntra,
      hsame.totalInter.trans h.totalInter⟩
  | failed hp => exact ⟨h.total, h.totalIntra, h.totalInter⟩
  | @called k frame now now' now'' s' hk hcall =>
    cases frame with
    | none =>
      cases hcall
      exact h
    | some frame =>
      obtain ⟨kind, sent, last, hkind, hsent, -, -⟩ := hrec.called hk hcall
      have hadd := h.add (hright kind sent s' hkind hsent hs)
      simpa only [Ledger.step, hkind, hsent] using hadd

/-- In every run the latencies added are right at every step if and only if every step is
current, and after a run of such steps the totals are those of the ledger. -/
theorem latencySender_totals {format : Format} {mem : List UInt8} {map : V3c.V3cFileMap}
    {chunkSizes : List Nat} {evs : List Event} {s : State}
    (hrun : Run (step format mem) (initial format map chunkSizes) evs s) :
    (EveryStep (step format mem) (RightLatency format mem) (initial format map chunkSizes) evs ↔
      EveryStep (step format mem) (fun done _ => Current format done)
        (initial format map chunkSizes) evs) ∧
    (EveryStep (step format mem) (fun done _ => Current format done)
        (initial format map chunkSizes) evs →
      Agrees (ledger format evs) s) := by
  have hiff : EveryStep (step format mem) (RightLatency format mem)
        (initial format map chunkSizes) evs ↔
      EveryStep (step format mem) (fun done _ => Current format done)
        (initial format map chunkSizes) evs := by
    refine everyStep_congr hrun fun done e mid mid' hmid hs => ?_
    exact rightLatency_iff (recorded_of_run hmid) hs
  refine ⟨hiff, fun hcurrent => ?_⟩
  refine Run.invariant_of_everyStep (I := fun done s => Agrees (ledger format done) s)
    ⟨rfl, rfl, rfl⟩ ?_ (hiff.mpr hcurrent) hrun
  intro done mid e mid' hmid h hright hs
  rw [ledger_concat]
  exact h.step (recorded_of_run hmid) hright hs

/-- One HEVC frame, back after 40 ms. -/
theorem latencySender_totals_one :
    ∃ s, Run (step .hevc []) (initial .hevc {} [5])
        [.record 0 0, .push true 0, .hook 0 (some ⟨[0, 0, 0, 1, 2]⟩) 40000000 0 0] s ∧
      Agrees { sendTimes := [0], total := 40, totalInter := 40 } s := by
  have hrun : Run (step .hevc []) (initial .hevc {} [5])
      [.record 0 0, .push true 0, .hook 0 (some ⟨[0, 0, 0, 1, 2]⟩) 40000000 0 0] _ :=
    run_get rfl
  refine ⟨_, hrun, (latencySender_totals hrun).2 ?_⟩
  intro done e rest mid hevs _
  obtain _ | ⟨a, _ | ⟨b, _ | ⟨c, done⟩⟩⟩ := done
  · cases hevs
    trivial
  · cases hevs
    trivial
  · cases hevs
    exact current_of_last rfl
  · simp at hevs

/-- A step of a run that is not current. -/
theorem not_everyStep_rightLatency {format : Format} {mem : List UInt8}
    {map : V3c.V3cFileMap} {chunkSizes : List Nat} {evs : List Event} {e : Event}
    {s s' : State} (hrun : Run (step format mem) (initial format map chunkSizes) evs s)
    (hs : step format mem s e = some s') (hcurrent : ¬ Current format evs e) :
    ¬ EveryStep (step format mem) (RightLatency format mem) (initial format map chunkSizes)
      (evs ++ [e]) :=
  fun h => hcurrent ((rightLatency_iff (recorded_of_run hrun) hs).mp (h.last hrun))

/-- An atlas unit with two NAL units of one byte. -/
def twoNals : V3c.V3cUnitInfo where
  header := .ofVuh (.ad {})
  nalInfos := [{ location := 0, size := 1 }, { location := 1, size := 1 }]

/-- A frame sent at 0 ms comes back at 40 ms, when the next has been sent at 33 ms: 7 ms
are added, of an HEVC and of an atlas frame. -/
theorem latencySender_not_right :
    ¬ EveryStep (step .hevc []) (RightLatency .hevc []) (initial .hevc {} [5, 5])
      ([.record 0 0, .push true 0, .record 33000000 33000000, .push true 33000000] ++
        [.hook 0 (some ⟨[0, 0, 0, 1, 2]⟩) 40000000 40000000 40000000]) ∧
    ¬ EveryStep (step .atlas [2, 2]) (RightLatency .atlas [2, 2])
      (initial .atlas { adUnits := [twoNals] } [])
      ([.record 0 0, .push true 0, .record 33000000 33000000, .push true 33000000] ++
        [.hook 0 (some ⟨[2]⟩) 40000000 40000000 40000000]) := by
  constructor
  · refine not_everyStep_rightLatency (run_get rfl) rfl ?_
    exact not_current_of_later (by decide) rfl rfl (by decide) (by decide) (by decide)
  · refine not_everyStep_rightLatency (run_get rfl) rfl ?_
    exact not_current_of_later (by decide) rfl rfl (by decide) (by decide) (by decide)

end RtpBenchmarks.Uvgrtp.LatencySender
