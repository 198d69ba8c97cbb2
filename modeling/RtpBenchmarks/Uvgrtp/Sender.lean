import RtpBenchmarks.Foundation.Threads
import RtpBenchmarks.Results.SendLog
import RtpBenchmarks.Util.ChunkSlices
import RtpBenchmarks.Uvgrtp.VpccPacing

set_option autoImplicit false

/-!
# Senders of the goodput benchmarks (`uvgrtp/sender.cc`, `ffmpeg/sender.cc`)

`main` starts a thread for each stream.  A thread hands out what there is to send, piece by
piece, and sleeps after each until the next one is due; at its end it appends a line to the
result file, which all threads share.  A thread of uvgRTP's sender ends without a line when
`push_frame` fails; one of FFmpeg's goes on.

For an atlas, `sender_func` does the same with the NAL units of the atlas stream, of which it
leaves some out.  Then there is one such sender.
-/

namespace RtpBenchmarks.Uvgrtp.Sender

open RtpBenchmarks.Foundation
open RtpBenchmarks.Results (SendResult)
open RtpBenchmarks.Util (Slice)
open RtpBenchmarks.Uvgrtp.LatencySender (naluT)
open RtpBenchmarks.Uvgrtp.VpccPacing (wait sleepDuration due_le_wake)
open RtpBenchmarks.V3c (NalInfo V3cUnitInfo)
open scoped List

/-! ## The code -/

/-- Whose sender it is. -/
inductive Library where
  | uvgrtp
  | ffmpeg
  deriving DecidableEq, Repr

/-- What is handed out in an iteration: the next chunk of a video, or a NAL unit of an
atlas. -/
inductive Job where
  | chunk (chunkSize : Nat)
  | nal (i : NalInfo)
  deriving DecidableEq, Repr

def Job.size : Job → Nat
  | .chunk chunkSize => chunkSize
  | .nal i => i.size

/-- The bytes that are handed out. -/
def Job.slice (bytesSent : Nat) : Job → Slice
  | .chunk chunkSize => ⟨bytesSent, chunkSize⟩
  | .nal i => ⟨i.location, i.size⟩

/-- Whether `sender_func` leaves it out. -/
def Job.isSkipped (bytes : List UInt8) : Job → Except MemFault Bool
  | .chunk _ => .ok false
  | .nal i => (loadByte bytes i.location).map fun b => decide (30 ≤ naluT b)

/-- What the threads share: the file in memory, and the time for a frame. -/
structure Setup where
  library : Library
  bytes : List UInt8
  period : Nat

/-- What the clock shows in an iteration: when a piece is handed out, when `runtime` is
computed, and at the end. -/
structure Readings where
  push : Int
  read : Int
  wake : Int
  deriving DecidableEq, Repr

/-- What has been handed out, and when. -/
structure Pushed where
  slice : Slice
  time : Int
  deriving DecidableEq, Repr

/-- How a thread ends. -/
inductive Ending where
  | failed
  | finished (result : SendResult)
  deriving DecidableEq, Repr

/-- The local variables of a thread: what is still to be sent, and the time of its last
step.  `slept` is what `sleep_for` was called with in the last iteration. -/
structure Thread where
  jobs : List Job
  start : Option Int := none
  bytesSent : Nat := 0
  currentFrame : Nat := 0
  slept : Option Nat := none
  pushed : List Pushed := []
  now : Int := 0
  ended : Option Ending := none
  deriving DecidableEq, Repr

/-- The body of the loop; `ok` is whether `push_frame` returns `RTP_OK`. -/
def Thread.push (c : Setup) (t : Thread) (start : Int) (job : Job) (jobs : List Job) (ok : Bool)
    (r : Readings) : Thread :=
  let slice := job.slice t.bytesSent
  let t : Thread :=
    { t with pushed := t.pushed ++ [{ slice, time := r.push }], now := r.push }
  if c.library = .uvgrtp ∧ ok = false then { t with ended := some .failed }
  else
    let t :=
      { t with
        jobs := jobs
        bytesSent := (t.bytesSent + slice.size) % 2 ^ 64
        currentFrame := t.currentFrame + 1
        now := r.wake }
    { t with slept := wait c.period start t.currentFrame r.read }

/-- A thread takes the time, leaves a NAL unit out, hands a piece out, or ends. -/
inductive Action where
  | begin (now : Int)
  | skip
  | push (ok : Bool) (r : Readings)
  | finish (now : Int)
  deriving DecidableEq, Repr

/-- A step of a thread, with what it appends to the result file; `none` where it cannot be
taken. -/
def Thread.step (c : Setup) (t : Thread) (a : Action) : Option (Thread × List SendResult) :=
  if t.ended.isSome then none
  else
    match a, t.start, t.jobs with
    | .begin now, none, _ => some ({ t with start := some now, now }, [])
    | .skip, some _, job :: jobs =>
      match job.isSkipped c.bytes with
      | .ok true => some ({ t with jobs }, [])
      | .ok false | .error _ => none
    | .push ok r, some start, job :: jobs =>
      match job.isSkipped c.bytes with
      | .ok false => some (t.push c start job jobs ok r, [])
      | .ok true | .error _ => none
    | .finish now, some start, [] =>
      let result : SendResult := { bytes := t.bytesSent, diff := milliseconds (now - start) }
      some ({ t with now, ended := some (.finished result) }, [result])
    | _, _, _ => none

/-- The threads of `main`, which all send the same. -/
def initial (nthreads : Nat) (jobs : List Job) : Threads Thread SendResult where
  threads := List.replicate nthreads { jobs }

/-- What `sender_thread` and `thread_func` send. -/
def videoJobs (chunkSizes : List Nat) : List Job :=
  chunkSizes.map .chunk

/-- What `sender_func` goes over. -/
def atlasJobs (units : List V3cUnitInfo) : List Job :=
  (units.flatMap (·.nalInfos)).map .nal

/-- A step of one of the threads. -/
def step (c : Setup) :
    Threads Thread SendResult → Nat × Action → Option (Threads Thread SendResult) :=
  Threads.next (Thread.step c)

/-! ## Runs with a clock -/

/-- The clock does not go back in the step, its times fit 64 bits, and when the thread sleeps
it does for as long as it is told to. -/
def Timely (c : Setup) (t : Thread) : Action → Prop
  | .begin _ | .skip => True
  | .push ok r => t.now ≤ r.push ∧ r.push ≤ r.read ∧ r.read ≤ r.wake ∧
      ∀ t' ∈ (t.step c (.push ok r)).map Prod.fst, ∀ d ∈ t'.slept,
        r.read + 1000 * sleepDuration d ≤ r.wake
  | .finish now => t.now ≤ now ∧ ∀ start ∈ t.start, now - start < 2 ^ 63

instance (c : Setup) (t : Thread) : DecidablePred (Timely c t)
  | .begin _ | .skip => inferInstanceAs (Decidable True)
  | .push _ _ => inferInstanceAs (Decidable (_ ∧ _ ∧ _ ∧ _))
  | .finish _ => inferInstanceAs (Decidable (_ ∧ _))

/-! ## What is to be sent -/

/-- What is not left out. -/
def sendable (bytes : List UInt8) (jobs : List Job) : List Job :=
  jobs.filter fun job => (job.isSkipped bytes).toOption = some false

/-- The pieces, from the first byte that has not been sent on. -/
def slicesOf (bytesSent : Nat) : List Job → List Slice
  | [] => []
  | job :: jobs => job.slice bytesSent :: slicesOf ((bytesSent + job.size) % 2 ^ 64) jobs

/-- How many bytes there are. -/
def totalSize (jobs : List Job) : Nat :=
  (jobs.map Job.size).sum

section Slices

variable {bytes : List UInt8} {job : Job} {jobs : List Job}

theorem Job.size_slice (job : Job) (bytesSent : Nat) : (job.slice bytesSent).size = job.size := by
  cases job <;> rfl

theorem length_slicesOf (bytesSent : Nat) (jobs : List Job) :
    (slicesOf bytesSent jobs).length = jobs.length := by
  induction jobs generalizing bytesSent with
  | nil => rfl
  | cons job jobs ih => rw [slicesOf, List.length_cons, List.length_cons, ih]

/-- Behind some pieces the others go on. -/
theorem slicesOf_append {bytesSent : Nat} (h : bytesSent < 2 ^ 64) (xs ys : List Job) :
    slicesOf bytesSent (xs ++ ys) =
      slicesOf bytesSent xs ++ slicesOf ((bytesSent + totalSize xs) % 2 ^ 64) ys := by
  induction xs generalizing bytesSent with
  | nil =>
    rw [List.nil_append, totalSize, List.map_nil, List.sum_nil, Nat.add_zero, Nat.mod_eq_of_lt h]
    rfl
  | cons job xs ih =>
    have hsum : ((bytesSent + job.size) % 2 ^ 64 + totalSize xs) % 2 ^ 64 =
        (bytesSent + totalSize (job :: xs)) % 2 ^ 64 := by
      rw [totalSize, totalSize, List.map_cons, List.sum_cons]
      omega
    rw [List.cons_append, slicesOf, slicesOf, ih (Nat.mod_lt _ (by decide)), hsum]
    rfl

/-- The last piece starts where those before it end. -/
theorem slicesOf_concat (jobs : List Job) (job : Job) :
    slicesOf 0 (jobs ++ [job]) =
      slicesOf 0 jobs ++ [job.slice (totalSize jobs % 2 ^ 64)] := by
  rw [slicesOf_append (by decide), Nat.zero_add]
  rfl

theorem totalSize_concat (jobs : List Job) (job : Job) :
    totalSize (jobs ++ [job]) = totalSize jobs + job.size := by
  simp [totalSize]

theorem slicesOf_videoJobs (bytesSent currentFrame : Nat) (chunkSizes : List Nat) :
    slicesOf bytesSent (videoJobs chunkSizes) =
      Util.pushLoop (fun _ => true) bytesSent currentFrame chunkSizes := by
  induction chunkSizes generalizing bytesSent currentFrame with
  | nil => rfl
  | cons chunkSize chunkSizes ih => exact congrArg _ (ih _ (currentFrame + 1))

theorem sendable_concat_of_skipped (h : job.isSkipped bytes = .ok true) :
    sendable bytes (jobs ++ [job]) = sendable bytes jobs := by
  simp [sendable, h, Except.toOption]

theorem sendable_concat_of_kept (h : job.isSkipped bytes = .ok false) :
    sendable bytes (jobs ++ [job]) = sendable bytes jobs ++ [job] := by
  simp [sendable, h, Except.toOption]

theorem sendable_videoJobs (bytes : List UInt8) (chunkSizes : List Nat) :
    sendable bytes (videoJobs chunkSizes) = videoJobs chunkSizes := by
  refine List.filter_eq_self.mpr fun job hjob => ?_
  obtain ⟨chunkSize, -, rfl⟩ := List.mem_map.mp hjob
  rfl

/-- Nothing of a video is left out, and its slices follow each other. -/
theorem slicesOf_sendable_videoJobs (bytes : List UInt8) (chunkSizes : List Nat) :
    slicesOf 0 (sendable bytes (videoJobs chunkSizes)) =
      Util.pushLoop (fun _ => true) 0 0 chunkSizes := by
  rw [sendable_videoJobs, slicesOf_videoJobs 0 0]

theorem length_sendable_le {tried : List Job} (h : tried <+: jobs) :
    (sendable bytes tried).length ≤ (sendable bytes jobs).length :=
  (h.sublist.filter _).length_le

end Slices

/-! ## What a step does -/

/-- What a step of a thread can do: its guards, the thread it leaves, and what it writes. -/
inductive Took (c : Setup) (t : Thread) : Action → Thread → List SendResult → Prop where
  | begin (now : Int) (fresh : t.start = none) :
      Took c t (.begin now) { t with start := some now, now } []
  | skip {start : Int} {job : Job} {jobs : List Job} (began : t.start = some start)
      (next : t.jobs = job :: jobs) (skipped : job.isSkipped c.bytes = .ok true) :
      Took c t .skip { t with jobs } []
  | fail {start : Int} {job : Job} {jobs : List Job} {r : Readings} (began : t.start = some start)
      (next : t.jobs = job :: jobs) (kept : job.isSkipped c.bytes = .ok false)
      (library : c.library = .uvgrtp) :
      Took c t (.push false r)
        { t with
          pushed := t.pushed ++ [{ slice := job.slice t.bytesSent, time := r.push }]
          now := r.push
          ended := some .failed } []
  | push {start : Int} {job : Job} {jobs : List Job} {ok : Bool} {r : Readings}
      (began : t.start = some start) (next : t.jobs = job :: jobs)
      (kept : job.isSkipped c.bytes = .ok false) (goes : c.library = .uvgrtp → ok = true) :
      Took c t (.push ok r)
        { t with
          jobs
          pushed := t.pushed ++ [{ slice := job.slice t.bytesSent, time := r.push }]
          bytesSent := (t.bytesSent + job.size) % 2 ^ 64
          currentFrame := t.currentFrame + 1
          slept := wait c.period start (t.currentFrame + 1) r.read
          now := r.wake } []
  | finish {start : Int} (now : Int) (began : t.start = some start) (all : t.jobs = []) :
      Took c t (.finish now)
        { t with
          now
          ended := some (.finished { bytes := t.bytesSent, diff := milliseconds (now - start) }) }
        [{ bytes := t.bytesSent, diff := milliseconds (now - start) }]

theorem took_of_step {c : Setup} {t t' : Thread} {a : Action} {out : List SendResult}
    (h : t.step c a = some (t', out)) : t.ended = none ∧ Took c t a t' out := by
  unfold Thread.step at h
  split_ifs at h with hended
  refine ⟨by simpa using hended, ?_⟩
  split at h
  · next hstart =>
    cases h
    exact .begin _ hstart
  · next hstart hjobs =>
    split at h
    · next hskip =>
      cases h
      exact .skip hstart hjobs hskip
    · cases h
    · cases h
  · next ok r start job jobs hstart hjobs =>
    split at h
    · next hkept =>
      cases h
      unfold Thread.push
      dsimp only
      split_ifs with hfail
      · obtain ⟨hlibrary, rfl⟩ := hfail
        exact .fail hstart hjobs hkept hlibrary
      · rw [Job.size_slice]
        exact .push hstart hjobs hkept fun hlibrary => by simpa [hlibrary] using hfail
    · cases h
    · cases h
  · next hstart hjobs =>
    cases h
    exact .finish _ hstart hjobs
  · cases h

/-! ## What a thread has done -/

/-- What is known of a thread that is to send `jobs`. -/
structure Sound (c : Setup) (jobs : List Job) (t : Thread) : Prop where
  tried : ∃ tried, tried <+: jobs ∧
    t.pushed.map (·.slice) = slicesOf 0 (sendable c.bytes tried) ∧
    (t.ended ≠ some .failed → jobs = tried ++ t.jobs ∧
      t.currentFrame = (sendable c.bytes tried).length ∧
      t.bytesSent = totalSize (sendable c.bytes tried) % 2 ^ 64)
  fresh : t.start = none → t.pushed = []
  times : ∀ start ∈ t.start, ∀ k p, t.pushed[k]? = some p →
    start + 1000 * ((k * c.period : Nat) : Int) ≤ p.time
  due : ∀ start ∈ t.start, t.ended ≠ some .failed →
    start + 1000 * ((t.currentFrame * c.period : Nat) : Int) ≤ t.now
  finished : ∀ r, t.ended = some (.finished r) →
    t.jobs = [] ∧ r.bytes = t.bytesSent ∧ t.currentFrame * c.period / 1000 ≤ r.diff

section Steps

variable {c : Setup} {jobs : List Job} {t t' : Thread} {a : Action} {out : List SendResult}

theorem sound_initial (c : Setup) (jobs : List Job) : Sound c jobs { jobs } where
  tried := ⟨[], List.nil_prefix, rfl, fun _ => ⟨rfl, rfl, rfl⟩⟩
  fresh _ := rfl
  times _ h := by cases h
  due _ h := by cases h
  finished _ h := by cases h

/-- A thread that has not failed has handed out as many pieces as it has counted. -/
theorem Sound.length_pushed (h : Sound c jobs t) (hrunning : t.ended ≠ some .failed) :
    t.pushed.length = t.currentFrame := by
  obtain ⟨tried, -, hslices, hrest⟩ := h.tried
  obtain ⟨-, hcount, -⟩ := hrest hrunning
  have hlength := congrArg List.length hslices
  rwa [List.length_map, length_slicesOf, ← hcount] at hlength

/-- The next piece is handed out when it is due. -/
theorem Sound.times_push (h : Sound c jobs t) (hrunning : t.ended ≠ some .failed) {slice : Slice}
    {time : Int} (htime : t.now ≤ time) :
    ∀ start ∈ t.start, ∀ k p, (t.pushed ++ [Pushed.mk slice time])[k]? = some p →
      start + 1000 * ((k * c.period : Nat) : Int) ≤ p.time := by
  intro start hstart k p hp
  rw [List.getElem?_append] at hp
  split at hp
  · exact h.times start hstart k p hp
  · next hge =>
    rw [List.getElem?_singleton, Option.ite_none_right_eq_some] at hp
    obtain ⟨hk, hp⟩ := hp
    obtain rfl := Option.some.inj hp
    obtain rfl : k = t.currentFrame := by
      rw [← h.length_pushed hrunning]
      omega
    exact Int.le_trans (h.due start hstart hrunning) htime

/-- What is still to be sent starts with the next piece. -/
theorem Sound.sendable_next (h : Sound c jobs t) (hrunning : t.ended ≠ some .failed) {job : Job}
    {rest : List Job} (hnext : t.jobs = job :: rest) (hkept : job.isSkipped c.bytes = .ok false) :
    ∃ tried, jobs = tried ++ job :: rest ∧ tried ++ [job] <+: jobs ∧
      t.pushed.map (·.slice) ++ [job.slice t.bytesSent] =
        slicesOf 0 (sendable c.bytes (tried ++ [job])) ∧
      (sendable c.bytes (tried ++ [job])).length = t.currentFrame + 1 ∧
      totalSize (sendable c.bytes (tried ++ [job])) % 2 ^ 64 =
        (t.bytesSent + job.size) % 2 ^ 64 := by
  obtain ⟨tried, -, hslices, hrest⟩ := h.tried
  obtain ⟨hjobs, hcount, hbytes⟩ := hrest hrunning
  rw [hnext] at hjobs
  refine ⟨tried, hjobs, ⟨rest, ?_⟩, ?_, ?_, ?_⟩
  · rw [hjobs, List.append_assoc]
    rfl
  · rw [sendable_concat_of_kept hkept, slicesOf_concat, hslices, hbytes]
  · rw [sendable_concat_of_kept hkept, List.length_append, hcount]
    rfl
  · rw [sendable_concat_of_kept hkept, totalSize_concat, hbytes]
    omega

theorem Sound.step (hfit : (sendable c.bytes jobs).length * c.period < 2 ^ 63)
    (h : Sound c jobs t) (htimely : Timely c t a) (hs : t.step c a = some (t', out)) :
    Sound c jobs t' := by
  obtain ⟨hnone, htook⟩ := took_of_step hs
  have hrunning : t.ended ≠ some .failed := by
    rw [hnone]
    rintro ⟨⟩
  cases htook with
  | begin now fresh =>
    have hempty := h.fresh fresh
    have hcount : t.currentFrame = 0 := by
      rw [← h.length_pushed hrunning, hempty]
      rfl
    refine ⟨h.tried, fun hstart => ?_, fun start _ k p hp => ?_, fun start hstart _ => ?_,
      h.finished⟩
    · cases hstart
    · rw [hempty] at hp
      cases hp
    · obtain rfl := Option.some.inj hstart
      simp [hcount]
  | @skip start job rest began next skipped =>
    obtain ⟨tried, hprefix, hslices, hrest⟩ := h.tried
    obtain ⟨hjobs, hcount, hbytes⟩ := hrest hrunning
    rw [next] at hjobs
    refine ⟨⟨tried ++ [job], ⟨rest, ?_⟩, ?_, fun _ => ⟨?_, ?_, ?_⟩⟩, h.fresh, h.times, h.due,
      fun r hr => ?_⟩
    · rw [hjobs, List.append_assoc]
      rfl
    · rw [sendable_concat_of_skipped skipped, hslices]
    · rw [hjobs, List.append_assoc]
      rfl
    · rw [sendable_concat_of_skipped skipped, ← hcount]
    · rw [sendable_concat_of_skipped skipped, ← hbytes]
    · cases hnone.symm.trans hr
  | fail began next kept library =>
    obtain ⟨tried, -, hprefix, hslices, -⟩ := h.sendable_next hrunning next kept
    refine ⟨⟨_, hprefix, ?_, fun hnot => absurd rfl hnot⟩, fun hstart => ?_,
      h.times_push hrunning htimely.1, fun _ _ hnot => absurd rfl hnot, fun r hr => ?_⟩
    · rw [List.map_append]
      exact hslices
    · rw [began] at hstart
      cases hstart
    · cases hr
  | @push start job rest ok r began next kept goes =>
    obtain ⟨tried, hjobs, hprefix, hslices, hcount, hbytes⟩ :=
      h.sendable_next hrunning next kept
    obtain ⟨hpush, hread, hwake, hsleep⟩ := htimely
    refine ⟨⟨_, hprefix, ?_, fun _ => ⟨?_, hcount.symm, hbytes.symm⟩⟩, fun hstart => ?_,
      h.times_push hrunning hpush, fun begun hbegun _ => ?_, fun r hr => ?_⟩
    · rw [List.map_append]
      exact hslices
    · rw [hjobs, List.append_assoc]
      rfl
    · rw [began] at hstart
      cases hstart
    · obtain rfl : start = begun := Option.some.inj (began.symm.trans hbegun)
      have hdue := h.due start began hrunning
      have hle : (t.currentFrame + 1) * c.period ≤ (sendable c.bytes jobs).length * c.period := by
        refine Nat.mul_le_mul_right _ ?_
        rw [← hcount]
        exact length_sendable_le hprefix
      have hq : (t.currentFrame + 1) * c.period < 2 ^ 64 := by omega
      have hfits : (t.currentFrame + 1) * c.period <
          2 ^ 63 + microseconds (r.read - start) := by omega
      exact due_le_wake hq (by omega) hwake hfits fun d hd => hsleep _ (by rw [hs]; rfl) d hd
    · cases hnone.symm.trans hr
  | @finish start now began all =>
    obtain ⟨htime, hshort⟩ := htimely
    have hdue := h.due start began hrunning
    refine ⟨?_, h.fresh, h.times, fun begun hbegun _ => ?_, fun r hr => ?_⟩
    · obtain ⟨tried, hprefix, hslices, hrest⟩ := h.tried
      exact ⟨tried, hprefix, hslices, fun _ => hrest hrunning⟩
    · obtain rfl : start = begun := Option.some.inj (began.symm.trans hbegun)
      exact Int.le_trans hdue htime
    · cases hr
      refine ⟨all, rfl, ?_⟩
      have hms := milliseconds_of_nonneg (d := now - start) (by omega) (hshort start began)
      dsimp only
      omega

end Steps

/-! ## Any interleaving -/

/-- The line that a thread has written. -/
def Thread.result (t : Thread) : Option SendResult :=
  match t.ended with
  | some (.finished result) => some result
  | some .failed | none => none

section Runs

variable {c : Setup} {nthreads : Nat} {jobs : List Job} {evs : List (Nat × Action)}
  {s : Threads Thread SendResult}

theorem Took.result_eq {t t' : Thread} {a : Action} {out : List SendResult}
    (h : Took c t a t' out) (hnone : t.ended = none) :
    t'.result.toList = t.result.toList ++ out := by
  unfold Thread.result
  rw [hnone]
  cases h with
  | finish now began all => rfl
  | fail began next kept library => rfl
  | begin now fresh => simp [hnone]
  | skip began next skipped => simp [hnone]
  | push began next kept goes => simp [hnone]

theorem log_perm (hrun : Run (step c) (initial nthreads jobs) evs s) :
    s.log ~ s.threads.filterMap Thread.result := by
  have hperm : s.log ~ s.threads.flatMap fun t => t.result.toList := by
    refine Threads.log_perm (fun hs => ?_) hrun ?_
    · obtain ⟨hnone, htook⟩ := took_of_step hs
      exact htook.result_eq hnone
    · simp [initial, Thread.result]
  rwa [← List.filterMap_eq_flatMap_toList] at hperm

theorem sound_of_run (hfit : (sendable c.bytes jobs).length * c.period < 2 ^ 63)
    (hrun : Run (step c) (initial nthreads jobs) evs s)
    (htimely : EveryStep (step c) (fun _ s e => s.Each (Timely c) e) (initial nthreads jobs) evs) :
    ∀ t ∈ s.threads, Sound c jobs t := by
  refine Threads.forall_run hrun ?_ htimely fun h hD hs => h.step hfit hD hs
  intro t ht
  obtain rfl := List.eq_of_mem_replicate ht
  exact sound_initial c jobs

/-- A thread that has written its line has handed out everything, and has taken its time. -/
theorem Sound.result {t : Thread} {r : SendResult} (h : Sound c jobs t) (hr : t.result = some r) :
    t.pushed.map (·.slice) = slicesOf 0 (sendable c.bytes jobs) ∧
      r.bytes = totalSize (sendable c.bytes jobs) % 2 ^ 64 ∧
      (sendable c.bytes jobs).length * c.period / 1000 ≤ r.diff := by
  have hended : t.ended = some (.finished r) := by
    unfold Thread.result at hr
    split at hr
    · cases hr
      assumption
    · cases hr
    · cases hr
  obtain ⟨hall, hbytes, hdiff⟩ := h.finished r hended
  obtain ⟨tried, -, hslices, hrest⟩ := h.tried
  obtain ⟨hjobs, hcount, hsum⟩ := hrest (by rw [hended]; rintro ⟨⟩)
  rw [hall, List.append_nil] at hjobs
  rw [hjobs]
  exact ⟨hslices, hbytes.trans hsum, hcount ▸ hdiff⟩

/-- What the lines in the file tell. -/
theorem forall_log (hfit : (sendable c.bytes jobs).length * c.period < 2 ^ 63)
    (hrun : Run (step c) (initial nthreads jobs) evs s)
    (htimely : EveryStep (step c) (fun _ s e => s.Each (Timely c) e) (initial nthreads jobs) evs) :
    ∀ r ∈ s.log, r.bytes = totalSize (sendable c.bytes jobs) % 2 ^ 64 ∧
      (sendable c.bytes jobs).length * c.period / 1000 ≤ r.diff := by
  intro r hr
  obtain ⟨t, ht, hresult⟩ := List.mem_filterMap.mp ((log_perm hrun).mem_iff.mp hr)
  exact ((sound_of_run hfit hrun htimely t ht).result hresult).2

/-- In every interleaving, each thread hands out what there is to send in its order, none of it
before it is due, and the file has a line of each thread that has come to its end and no
other.  Such a line tells all bytes and at least the time that they are to take; there is one
of each thread exactly when all have come to their end. -/
theorem sender_threads (hfit : (sendable c.bytes jobs).length * c.period < 2 ^ 63)
    (hrun : Run (step c) (initial nthreads jobs) evs s)
    (htimely : EveryStep (step c) (fun _ s e => s.Each (Timely c) e) (initial nthreads jobs) evs) :
    (∀ t ∈ s.threads,
      t.pushed.map (·.slice) <+: slicesOf 0 (sendable c.bytes jobs) ∧
      (∀ start ∈ t.start, ∀ k p, t.pushed[k]? = some p →
        start + 1000 * ((k * c.period : Nat) : Int) ≤ p.time) ∧
      (t.result ≠ none → t.pushed.map (·.slice) = slicesOf 0 (sendable c.bytes jobs))) ∧
    s.log ~ s.threads.filterMap Thread.result ∧
    (∀ r ∈ s.log, r.bytes = totalSize (sendable c.bytes jobs) % 2 ^ 64 ∧
      (sendable c.bytes jobs).length * c.period / 1000 ≤ r.diff) ∧
    (s.log.length = nthreads ↔ ∀ t ∈ s.threads, t.result ≠ none) := by
  have hsound := sound_of_run hfit hrun htimely
  have hlog := log_perm hrun
  refine ⟨fun t ht => ⟨?_, (hsound t ht).times, fun hdone => ?_⟩, hlog,
    forall_log hfit hrun htimely, ?_⟩
  · obtain ⟨tried, ⟨rest, rfl⟩, hslices, -⟩ := (hsound t ht).tried
    rw [hslices, sendable, sendable, List.filter_append, slicesOf_append (by decide)]
    exact List.prefix_append _ _
  · obtain ⟨r, hr⟩ := Option.ne_none_iff_exists'.mp hdone
    exact ((hsound t ht).result hr).1
  · have hlength : s.threads.length = nthreads := by
      rw [Threads.length_run hrun]
      exact List.length_replicate
    rw [hlog.length_eq, ← hlength, List.length_filterMap_eq_countP, List.countP_eq_length]
    simp [Option.isSome_iff_ne_none]

end Runs

/-- Two threads with two chunks of two bytes, ten microseconds apart. -/
def twoChunks : Setup where
  library := .uvgrtp
  bytes := [1, 2, 3, 4]
  period := 10

/-- `push_frame` fails in the second thread. -/
def failingRun : List (Nat × Action) :=
  [(0, .begin 0), (1, .begin 500), (0, .push true ⟨0, 0, 10000⟩),
    (1, .push false ⟨600, 600, 600⟩), (0, .push true ⟨10000, 11000, 20000⟩), (0, .finish 20500)]

theorem sender_threads_two :
    ∃ s, Run (step twoChunks) (initial 2 (videoJobs [2, 2])) failingRun s ∧
      s.log.length ≠ 2 ∧ ∀ r ∈ s.log, r.bytes = 4 := by
  have hrun : Run (step twoChunks) (initial 2 (videoJobs [2, 2])) failingRun _ :=
    run_get (by decide +kernel)
  obtain ⟨-, -, hlines, hall⟩ := sender_threads (by decide) hrun (by decide +kernel)
  refine ⟨_, hrun, mt hall.mp (by decide +kernel), fun r hr => (hlines r hr).1⟩

end RtpBenchmarks.Uvgrtp.Sender
