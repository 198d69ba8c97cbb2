import RtpBenchmarks.Live555.LatencySender
import RtpBenchmarks.Live555.Source
import RtpBenchmarks.Uvgrtp.VpccPacing

set_option autoImplicit false

/-!
# Pacing of the Live555 sender (`live555/source.cc`)

Before a NAL unit is handed on, `deliverFrame` sleeps until `current * period` microseconds
have passed since the first call.  The counter `current` is to hold the frame rate for
pictures, but it counts the NAL units of more than 1500 bytes: a picture is on time when as
many of these have been handed on before it as pictures.

The wait itself is right: where the counter grows by at most one from a call to the next, no
wait is longer than `period`.
-/

namespace RtpBenchmarks.Live555.Source

open RtpBenchmarks.Foundation
open RtpBenchmarks.Uvgrtp.VpccPacing (sleepDuration sleepDuration_of_lt)

/-! ## Runs with a clock -/

/-- The test before `++current`. -/
def isCounted (u : Nat × Nat) : Bool :=
  1500 < u.2

/-- A NAL unit whose first byte is that of a picture. -/
def isPicture (picture : UInt8 → Bool) (mem : List UInt8) (u : Nat × Nat) : Bool :=
  mem[u.1]?.any picture

/-- Intra and inter pictures, as the latency sender tells them. -/
def intraOrInter (b : UInt8) : Bool :=
  LatencySender.nalType b = 19 ∨ LatencySender.nalType b = 1

/-- The clock does not go back in a call or from one call to a later one. -/
def Clock (calls : List Call) : Prop :=
  (∀ c ∈ calls, c.times.start ≤ c.times.now ∧ c.times.now ≤ c.times.awake ∧
      c.times.awake ≤ c.times.done) ∧
    calls.Pairwise fun c c' => c.times.done ≤ c'.times.start

instance (calls : List Call) : Decidable (Clock calls) :=
  inferInstanceAs (Decidable (_ ∧ _))

/-- A call sleeps for as long as it is told to. -/
def Sleeps (period base : Nat) (mem : List UInt8) (s : State) (c : Call) : Prop :=
  ∀ s' ∈ step period base mem s c, ∀ d ∈ s'.delivered.drop s.delivered.length,
    c.times.now + 1000 * sleepDuration d.sleep ≤ c.times.awake

instance (period base : Nat) (mem : List UInt8) (s : State) (c : Call) :
    Decidable (Sleeps period base mem s c) :=
  inferInstanceAs (Decidable (∀ s' ∈ step period base mem s c, _))

/-- The pictures that have been handed on. -/
def pictures (picture : UInt8 → Bool) (mem : List UInt8) (s : State) : List Delivery :=
  s.delivered.filter fun d => isPicture picture mem d.nal

/-- How many NAL units of more than 1500 bytes have been handed on. -/
def counted (s : State) : Nat :=
  s.delivered.countP fun d => isCounted d.nal

/-- No picture is handed on before it is due. -/
def OnTime (picture : UInt8 → Bool) (period : Nat) (mem : List UInt8) (s : State) : Prop :=
  ∀ (k : Nat) (d : Delivery), (pictures picture mem s)[k]? = some d →
    s.sTmr + 1000 * ((k * period : Nat) : Int) ≤ d.awake

/-- If the call hands on a picture, as many NAL units of more than 1500 bytes have been handed
on before it as pictures, and the time until it is due can be computed and slept. -/
def Paced (picture : UInt8 → Bool) (period : Nat) (mem : List UInt8) (s : State) (c : Call) :
    Prop :=
  c.awaitingData = true →
    period < 2 ^ 63 ∧ counted s * period < 2 ^ 64 ∧
      ∀ u ∈ (nalUnits mem)[s.delivered.length]?, u.2 ≠ 0 → isPicture picture mem u = true →
        (pictures picture mem s).length ≤ counted s

instance (picture : UInt8 → Bool) (period : Nat) (mem : List UInt8) (s : State) (c : Call) :
    Decidable (Paced picture period mem s c) :=
  inferInstanceAs (Decidable (_ → _ ∧ _ ∧ _))

/-- For how many microseconds a call sleeps. -/
def wait (period current : Nat) (elapsed : Int) : Nat :=
  let runtime := microseconds elapsed
  let due := current * period % 2 ^ 64
  if runtime < due then due - runtime else 0

section Step

variable {picture : UInt8 → Bool} {period base : Nat} {mem : List UInt8} {s s' : State} {c : Call}
  {u : Nat × Nat} {rest : List (Nat × Nat)}

/-- What `deliverFrame` does: it hands on nothing, or a NAL unit when it has slept. -/
theorem deliverFrame_cases {awaitingData : Bool} {fMaxSize : UInt32} {t : Times}
    (h : deliverFrame period base mem s awaitingData fMaxSize t = .ok s')
    (hrun : s.exited = none) :
    s'.initialized = s.initialized ∧ s'.sTmr = s.sTmr ∧
    ((s'.delivered = s.delivered ∧ s'.current = s.current ∧
        (awaitingData = true → s'.exited ≠ none)) ∨
      awaitingData = true ∧ s'.exited = none ∧ ∃ d, s'.delivered = s.delivered ++ [d] ∧
        d.sleep = wait period s.current (t.now - s.sTmr) ∧ d.awake = t.awake ∧
        s'.current = if isCounted d.nal then (s.current + 1) % 2 ^ 64 else s.current) := by
  unfold deliverFrame at h
  cases awaitingData with
  | false =>
    cases h
    exact ⟨rfl, rfl, .inl ⟨rfl, rfl, fun hawait => by cases hawait⟩⟩
  | true =>
    rw [if_pos rfl] at h
    obtain ⟨⟨nalState, size, data⟩, hnal, h⟩ := bind_eq_ok_iff.mp h
    dsimp only at h
    cases data with
    | none =>
      cases h
      exact ⟨rfl, rfl, .inl ⟨rfl, rfl, fun _ => Option.some_ne_none _⟩⟩
    | some data =>
      dsimp only at h
      split at h
      · cases h
        exact ⟨rfl, rfl, .inl ⟨rfl, rfl, fun _ => Option.some_ne_none _⟩⟩
      · obtain ⟨fTo, -, h⟩ := bind_eq_ok_iff.mp h
        cases h
        refine ⟨rfl, rfl, .inr ⟨rfl, hrun, _, rfl, ?_⟩⟩
        simp [wait, isCounted]

theorem step_eq_some (h : step period base mem s c = some s') :
    s.exited = none ∧
      doGetNextFrame period base mem s c.awaitingData c.fMaxSize c.times = .ok s' := by
  unfold step at h
  split_ifs at h with hexit
  split at h
  · cases h
  · next hcall => exact ⟨by simpa using hexit, hcall.trans (congrArg _ (Option.some.inj h))⟩

/-- What a call does. -/
theorem step_cases (h : step period base mem s c = some s') :
    s'.initialized = true ∧ s'.sTmr = (if s.initialized then s.sTmr else c.times.start) ∧
    ((s'.delivered = s.delivered ∧ s'.current = s.current ∧
        (c.awaitingData = true → s'.exited ≠ none)) ∨
      c.awaitingData = true ∧ s'.exited = none ∧ ∃ d, s'.delivered = s.delivered ++ [d] ∧
        d.sleep = wait period s.current (c.times.now - s'.sTmr) ∧ d.awake = c.times.awake ∧
        s'.current = if isCounted d.nal then (s.current + 1) % 2 ^ 64 else s.current) := by
  obtain ⟨hrun, hcall⟩ := step_eq_some h
  unfold doGetNextFrame at hcall
  by_cases hfirst : s.initialized = true
  · rw [if_pos hfirst] at hcall
    obtain ⟨hinit, hsTmr, hcases⟩ := deliverFrame_cases hcall hrun
    rw [hsTmr]
    exact ⟨hinit.trans hfirst, (if_pos hfirst).symm, hcases⟩
  · -- the first call sets the clock
    rw [if_neg hfirst] at hcall
    obtain ⟨hinit, hsTmr, hcases⟩ := deliverFrame_cases hcall hrun
    rw [hsTmr]
    exact ⟨hinit, (if_neg hfirst).symm, hcases⟩

/-- The counter wraps around where it does not matter. -/
theorem due_eq {period n : Nat} (hfits : n * period < 2 ^ 64) :
    n % 2 ^ 64 * period % 2 ^ 64 = n * period := by
  rcases Nat.eq_zero_or_pos period with rfl | hpos
  · simp
  · have hn : n < 2 ^ 64 := (Nat.le_mul_of_pos_right n hpos).trans_lt hfits
    rw [Nat.mod_eq_of_lt hn, Nat.mod_eq_of_lt hfits]

/-- A call that begins no earlier than the last NAL unit was due goes on when this one is. -/
theorem due_le_awake {period n : Nat} {sTmr now awake : Int} (hperiod : period < 2 ^ 63)
    (hfits : n * period < 2 ^ 64) (hnow : sTmr + 1000 * (((n - 1) * period : Nat) : Int) ≤ now)
    (hle : now ≤ awake)
    (hsleep : now + 1000 * sleepDuration (wait period (n % 2 ^ 64) (now - sTmr)) ≤ awake) :
    sTmr + 1000 * ((n * period : Nat) : Int) ≤ awake := by
  have hlast : n * period ≤ (n - 1) * period + period := by
    rw [← Nat.succ_mul]
    exact Nat.mul_le_mul_right period (by omega)
  unfold wait at hsleep
  rw [due_eq hfits] at hsleep
  dsimp only at hsleep
  generalize n * period = due at *
  generalize (n - 1) * period = last at *
  by_cases hlate : sTmr + 1000 * (due : Int) ≤ now
  · omega
  have hruntime := microseconds_of_nonneg (show 0 ≤ now - sTmr by omega) (by omega)
  generalize microseconds (now - sTmr) = runtime at *
  -- the last one was due, so the wait is at most the period
  rw [if_pos (by omega), sleepDuration_of_lt (by omega)] at hsleep
  omega

theorem clock_concat {calls : List Call} :
    Clock (calls ++ [c]) ↔ Clock calls ∧
      (c.times.start ≤ c.times.now ∧ c.times.now ≤ c.times.awake ∧
        c.times.awake ≤ c.times.done) ∧
      ∀ c' ∈ calls, c'.times.done ≤ c.times.start := by
  simp only [Clock, List.forall_mem_append, List.pairwise_append, List.mem_singleton, forall_eq,
    List.pairwise_singleton]
  tauto

/-- The sleep of a call that hands on a NAL unit. -/
theorem sleeps_iff {d : Delivery} (hs : step period base mem s c = some s')
    (hd : s'.delivered = s.delivered ++ [d]) :
    Sleeps period base mem s c ↔ c.times.now + 1000 * sleepDuration d.sleep ≤ c.times.awake := by
  simp only [Sleeps, hs, Option.mem_def, Option.some.injEq, forall_eq', hd, List.drop_left,
    List.mem_singleton, forall_eq]

theorem counted_append {d : Delivery} (hd : s'.delivered = s.delivered ++ [d]) :
    counted s' = counted s + if isCounted d.nal then 1 else 0 := by
  rw [counted, hd, List.countP_append, List.countP_singleton, counted]

/-- A NAL unit is handed on in time. -/
theorem OnTime.append {d : Delivery} {t : Int}
    (h : OnTime picture period mem { s with sTmr := t })
    (hd : s'.delivered = s.delivered ++ [d]) (ht : s'.sTmr = t)
    (hdue : isPicture picture mem d.nal = true →
      t + 1000 * (((pictures picture mem s).length * period : Nat) : Int) ≤ d.awake) :
    OnTime picture period mem s' := by
  intro k e he
  rw [pictures, hd, List.filter_append, List.filter_singleton] at he
  rw [ht]
  rw [List.getElem?_append] at he
  split at he
  · exact h k e he
  · next hk =>
    cases hpicture : isPicture picture mem d.nal with
    | false =>
      rw [hpicture] at he
      cases he
    | true =>
      rw [hpicture, cond_true, List.getElem?_singleton, Option.ite_none_right_eq_some] at he
      obtain ⟨hlen, he⟩ := he
      obtain rfl := Option.some.inj he
      have hk' : k = (pictures picture mem s).length := by
        unfold pictures
        omega
      rw [hk']
      exact hdue hpicture

/-- The time of the first call stays, or nothing has been handed on. -/
theorem OnTime.of_initialized (h : OnTime picture period mem s)
    (hfresh : s.initialized = false → s.delivered = []) (t : Int) :
    OnTime picture period mem { s with sTmr := if s.initialized then s.sTmr else t } := by
  intro k d hd
  change (pictures picture mem s)[k]? = some d at hd
  cases hfirst : s.initialized with
  | true => exact h k d hd
  | false =>
    rw [pictures, hfresh hfirst] at hd
    cases hd

/-! ## Every run -/

/-- The counter counts, and the first call sets the clock. -/
structure Counts (s : State) : Prop where
  current : s.current = counted s % 2 ^ 64
  fresh : s.initialized = false → s.delivered = [] ∧ s.sTmr = 0

theorem Counts.step (h : Counts s) (hs : step period base mem s c = some s') : Counts s' := by
  obtain ⟨hinit, -, hcases⟩ := step_cases hs
  refine ⟨?_, by simp [hinit]⟩
  rcases hcases with ⟨hdelivered, hcurrent, -⟩ | ⟨-, -, d, hdelivered, -, -, hcurrent⟩
  · rw [hcurrent, h.current, counted, counted, hdelivered]
  · rw [hcurrent, counted_append hdelivered, h.current]
    split_ifs
    · omega
    · rfl

theorem counts_of_run {calls : List Call} (hrun : Run (step period base mem) {} calls s) :
    Counts s :=
  Run.invariant (I := fun _ s => Counts s) ⟨rfl, fun _ => ⟨rfl, rfl⟩⟩
    (fun _ _ _ _ _ h hs => h.step hs) hrun

/-- No time from here on is before the last NAL unit was due. -/
structure Kept (picture : UInt8 → Bool) (period : Nat) (mem : List UInt8) (done : List Call)
    (s : State) : Prop where
  passed : s.initialized = true → ∀ t, (∀ c ∈ done, c.times.done ≤ t) →
    s.sTmr + 1000 * (((counted s - 1) * period : Nat) : Int) ≤ t
  onTime : OnTime picture period mem s

theorem kept_initial : Kept picture period mem [] {} where
  passed h := by cases h
  onTime k d h := by cases h

/-- The NAL unit that a call hands on is the next of the file. -/
theorem next_unit (h : Progress base mem s' rest) {d : Delivery}
    (hd : s'.delivered = s.delivered ++ [d]) :
    (nalUnits mem)[s.delivered.length]? = some d.nal := by
  rw [← h.units, hd, List.map_append, List.append_assoc]
  simp

theorem Kept.step {done : List Call} (h : Kept picture period mem done s) (hcounts : Counts s)
    (hprogress : Progress base mem s' rest) (hclock : Clock (done ++ [c]))
    (hsleep : Sleeps period base mem s c) (hpaced : Paced picture period mem s c)
    (hs : step period base mem s c = some s') : Kept picture period mem (done ++ [c]) s' := by
  obtain ⟨-, ⟨hstart, hnow, hawake⟩, hbefore⟩ := clock_concat.mp hclock
  obtain ⟨hinit, hsTmr, hcases⟩ := step_cases hs
  -- the last NAL unit was due before the call starts
  have hlast : s'.sTmr + 1000 * (((counted s - 1) * period : Nat) : Int) ≤ c.times.start := by
    rw [hsTmr]
    cases hfirst : s.initialized with
    | true => exact h.passed hfirst _ hbefore
    | false => simp [counted, (hcounts.fresh hfirst).1]
  have honTime : OnTime picture period mem { s with sTmr := s'.sTmr } := by
    rw [hsTmr]
    exact h.onTime.of_initialized (fun hfirst => (hcounts.fresh hfirst).1) c.times.start
  rcases hcases with
    ⟨hdelivered, -, -⟩ | ⟨hawait, -, d, hdelivered, hwait, hgoes, -⟩
  · have hcounted : counted s' = counted s := by rw [counted, hdelivered, counted]
    refine ⟨fun _ t ht => ?_, fun k d hd => ?_⟩
    · have hdone := ht c (by simp)
      rw [hcounted]
      omega
    · rw [pictures, hdelivered] at hd
      exact honTime k d hd
  · obtain ⟨hperiod, hfits, hnext⟩ := hpaced hawait
    have hslept := (sleeps_iff hs hdelivered).mp hsleep
    rw [hwait, hcounts.current] at hslept
    have hdue := due_le_awake hperiod hfits (hlast.trans hstart) hnow hslept
    have hcounted := counted_append hdelivered
    refine ⟨fun _ t ht => ?_, honTime.append hdelivered rfl fun hpicture => ?_⟩
    · have hdone := ht c (by simp)
      have hgrow : (counted s' - 1) * period ≤ counted s * period :=
        Nat.mul_le_mul_right period (by rw [hcounted]; split_ifs <;> omega)
      omega
    · have hne : d.nal.2 ≠ 0 := hprogress.nonempty d.nal (by simp [hdelivered])
      have hle := hnext d.nal (next_unit hprogress hdelivered) hne hpicture
      have hmul := Nat.mul_le_mul_right period hle
      rw [hgoes]
      omega

theorem kept_of_run {calls : List Call} (hclock : Clock calls)
    (hsleep : EveryStep (step period base mem) (fun _ s c => Sleeps period base mem s c) {} calls)
    (hpaced : EveryStep (step period base mem) (fun _ s c => Paced picture period mem s c) {}
      calls)
    (hrun : Run (step period base mem) {} calls s) : Kept picture period mem calls s := by
  induction calls using List.reverseRecOn generalizing s with
  | nil =>
    rw [← run_nil.mp hrun]
    exact kept_initial
  | append_singleton calls c ih =>
    obtain ⟨mid, hmid, hstep⟩ := run_concat.mp hrun
    obtain ⟨rest, hprogress⟩ := progress_of_run hrun
    exact (ih (clock_concat.mp hclock).1 hsleep.of_append hpaced.of_append hmid).step (counts_of_run hmid) hprogress
      hclock (hsleep.last hmid) (hpaced.last hmid) hstep

/-! ## The earliest run -/

theorem sleepDuration_le (d : Nat) : sleepDuration d ≤ d := by
  unfold sleepDuration
  rw [Int.bmod_def]
  split_ifs <;> omega

/-- A wait does not go beyond what is due. -/
theorem wait_le {current m : Nat} (hm : m < 2 ^ 64) :
    m + wait period current (1000 * m) ≤ max m (current * period % 2 ^ 64) := by
  have hruntime := microseconds_of_nonneg (show 0 ≤ 1000 * (m : Int) by omega) (by omega)
  unfold wait
  dsimp only
  generalize current * period % 2 ^ 64 = due
  split_ifs <;> omega

/-- The first time, in microseconds, at which a call that starts at `m` may go on. -/
theorem exists_earliest {current m bound : Nat} (hm : m < 2 ^ 64) (hle : m ≤ bound)
    (hdue : current * period ≤ bound) :
    ∃ m' : Nat, m ≤ m' ∧ m + sleepDuration (wait period current (1000 * m)) ≤ m' ∧
      m' ≤ bound ∧ m' < 2 ^ 64 := by
  have hbound := @wait_le period current m hm
  have hshort := sleepDuration_le (wait period current (1000 * m))
  have hmod := Nat.mod_lt (current * period) (Nat.two_pow_pos 64)
  have hmodle := Nat.mod_le (current * period) (2 ^ 64)
  generalize current * period % 2 ^ 64 = due at *
  generalize wait period current (1000 * m) = w at *
  refine ⟨max m due, ?_, ?_, ?_, ?_⟩ <;> omega

theorem Progress.exists_step (h : Progress base mem s rest) (hrun : s.exited = none) (c : Call) :
    ∃ s', Source.step period base mem s c = some s' := by
  unfold Source.step doGetNextFrame
  rw [if_neg (by simp [hrun])]
  have hinit : Progress base mem (if s.initialized then s
      else { s with sTmr := c.times.start, initialized := true }) rest := by
    split_ifs
    · exact h
    · exact ⟨h.units, h.nonempty, h.bytes, h.next, h.exited⟩
  obtain ⟨s', hs', -⟩ := hinit.deliverFrame (by split_ifs <;> exact hrun) period c.awaitingData
    c.fMaxSize c.times
  exact ⟨s', by rw [hs']⟩

/-- The NAL units `front` have been handed on, as early as the sleeps allow; the clock shows
`m` microseconds. -/
structure Early (period base : Nat) (mem : List UInt8) (front : List (Nat × Nat))
    (calls : List Call) (s : State) (m : Nat) : Prop where
  run : Run (Source.step period base mem) {} calls s
  clock : Clock calls
  sleeps : EveryStep (Source.step period base mem) (fun _ s c => Sleeps period base mem s c) {}
    calls
  running : s.exited = none
  units : s.delivered.map (·.nal) = front
  start : s.sTmr = 0
  fresh : s.initialized = false → m = 0
  last : ∀ c ∈ calls, c.times.done ≤ 1000 * m
  early : m ≤ front.countP isCounted * period
  small : m < 2 ^ 64

theorem early_initial : Early period base mem [] [] {} 0 where
  run := run_nil.mpr rfl
  clock := ⟨by simp, List.Pairwise.nil⟩
  sleeps := by simp [EveryStep]
  running := rfl
  units := rfl
  start := rfl
  fresh _ := rfl
  last := by simp
  early := Nat.zero_le _
  small := by decide

/-- A call that hands on the next NAL unit. -/
theorem Progress.hands_on (h : Progress base mem s (u :: rest)) (hu : u.2 ≠ 0)
    (hawait : c.awaitingData = true) (hs : Source.step period base mem s c = some s') :
    s'.exited = none ∧ ∃ d, s'.delivered = s.delivered ++ [d] ∧ d.nal = u ∧
      d.sleep = wait period s.current (c.times.now - s'.sTmr) ∧ d.awake = c.times.awake := by
  obtain ⟨rest', hprogress⟩ := h.step hs
  rcases (step_cases hs).2.2 with
    ⟨hdelivered, -, hexit⟩ | ⟨-, hexit, d, hdelivered, hwait, hgoes, -⟩
  · -- the program would exit, but a NAL unit with content is next
    obtain ⟨r, hr⟩ := Option.ne_none_iff_exists'.mp (hexit hawait)
    have hunits := hprogress.units.trans h.units.symm
    rw [hdelivered] at hunits
    obtain rfl := List.append_cancel_left hunits
    exact absurd ((hprogress.exited r hr).2 u rfl) hu
  · refine ⟨hexit, d, hdelivered, ?_, hwait, hgoes⟩
    have hnext := next_unit hprogress hdelivered
    rw [← h.units] at hnext
    simpa using hnext.symm

theorem Early.step {front : List (Nat × Nat)} {calls : List Call} {m : Nat}
    (h : Early period base mem front calls s m) (hunits : nalUnits mem = front ++ u :: rest)
    (hu : u.2 ≠ 0) :
    ∃ (c : Call) (s' : State) (m' : Nat) (d : Delivery),
      Early period base mem (front ++ [u]) (calls ++ [c]) s' m' ∧
      s'.delivered = s.delivered ++ [d] ∧ d.nal = u ∧ d.awake = 1000 * m' ∧
      m' ≤ front.countP isCounted * period := by
  obtain ⟨rest', hprogress⟩ := progress_of_run h.run
  have hrest := hprogress.units.trans hunits
  rw [h.units] at hrest
  obtain rfl := List.append_cancel_left hrest
  have hdue : s.current * period ≤ front.countP isCounted * period := by
    refine Nat.mul_le_mul_right period ?_
    rw [(counts_of_run h.run).current, ← h.units, List.countP_map]
    exact Nat.mod_le _ _
  obtain ⟨m', hm, hsleep, hbound, hsmall⟩ := exists_earliest h.small h.early hdue
  obtain ⟨c, hc⟩ : ∃ c : Call, c =
      { awaitingData := true
        fMaxSize := 60000
        times := ⟨1000 * m, 1000 * m, 1000 * m', 1000 * m'⟩ } := ⟨_, rfl⟩
  have hawait : c.awaitingData = true := by rw [hc]
  obtain ⟨s', hs'⟩ := @Progress.exists_step period _ _ _ _ hprogress h.running c
  obtain ⟨hexit, d, hdelivered, hnal, hwait, hgoes⟩ := hprogress.hands_on hu hawait hs'
  obtain ⟨hinit, hsTmr, -⟩ := step_cases hs'
  -- the first call is at the time 0
  have hstart : s'.sTmr = 0 := by
    rw [hsTmr]
    cases hfirst : s.initialized with
    | true => exact h.start
    | false => simp [hc, h.fresh hfirst]
  refine ⟨c, s', m', d, ?_, hdelivered, hnal, by rw [hgoes, hc], hbound⟩
  exact
    { run := run_concat.mpr ⟨s, h.run, hs'⟩
      clock := by
        refine clock_concat.mpr ⟨h.clock, ?_, ?_⟩
        · rw [hc]
          exact ⟨Int.le_refl _, by dsimp only; omega, Int.le_refl _⟩
        · rw [hc]
          exact h.last
      sleeps := by
        refine everyStep_concat.mpr ⟨h.sleeps, fun mid hmid => ?_⟩
        obtain rfl := hmid.unique h.run
        rw [sleeps_iff hs' hdelivered, hwait, hstart, hc, Int.sub_zero]
        dsimp only
        omega
      running := hexit
      units := by rw [hdelivered, List.map_append, h.units, List.map_singleton, hnal]
      start := hstart
      fresh := by simp [hinit]
      last := by
        rw [List.forall_mem_append, List.forall_mem_singleton]
        refine ⟨fun c₁ hc₁ => ?_, by rw [hc]⟩
        have hlast := h.last c₁ hc₁
        omega
      early := by
        rw [List.countP_append, Nat.add_mul]
        omega
      small := hsmall }

theorem exists_early {front : List (Nat × Nat)} (hunits : nalUnits mem = front ++ rest)
    (hne : ∀ v ∈ front, v.2 ≠ 0) : ∃ calls s m, Early period base mem front calls s m := by
  induction front using List.reverseRecOn generalizing rest with
  | nil => exact ⟨[], {}, 0, early_initial⟩
  | append_singleton front v ih =>
    rw [List.append_assoc, List.singleton_append] at hunits
    obtain ⟨calls, s, m, hearly⟩ := ih hunits fun w hw => hne w (List.mem_append_left _ hw)
    obtain ⟨c, s', m', -, hearly', -⟩ := hearly.step hunits (hne v (by simp))
    exact ⟨_, s', m', hearly'⟩

/-- A picture with too few NAL units of more than 1500 bytes before it can be early. -/
theorem exists_late {front : List (Nat × Nat)} (hperiod : 0 < period)
    (hunits : nalUnits mem = front ++ u :: rest) (hne : ∀ v ∈ front, v.2 ≠ 0) (hu : u.2 ≠ 0)
    (hpicture : isPicture picture mem u = true)
    (hfew : front.countP isCounted < front.countP (isPicture picture mem)) :
    ∃ calls s, Run (step period base mem) {} calls s ∧ Clock calls ∧
      EveryStep (step period base mem) (fun _ s c => Sleeps period base mem s c) {} calls ∧
      ¬ OnTime picture period mem s := by
  obtain ⟨calls, s, m, hearly⟩ := @exists_early period base _ _ _ hunits hne
  obtain ⟨c, s', m', d, hearly', hdelivered, hnal, hawake, hbound⟩ := hearly.step hunits hu
  refine ⟨_, s', hearly'.run, hearly'.clock, hearly'.sleeps, fun hon => ?_⟩
  have hcount : (pictures picture mem s).length = front.countP (isPicture picture mem) := by
    rw [pictures, ← List.countP_eq_length_filter, ← hearly.units, List.countP_map]
    rfl
  have hlast : (pictures picture mem s')[(pictures picture mem s).length]? = some d := by
    rw [pictures, hdelivered, List.filter_append, List.filter_singleton, hnal, hpicture,
      cond_true, ← pictures, List.getElem?_concat_length]
  have hdue := hon _ d hlast
  rw [hearly'.start, hcount, hawake] at hdue
  have hmul := Nat.mul_lt_mul_of_pos_right hfew hperiod
  omega

/-- In every run with a clock whose calls hand on a picture only when as many NAL units of more
than 1500 bytes as pictures have been handed on before it, no picture is handed on before it is
due.  A file with another picture has a run in which one is. -/
theorem sourcePacing_run (picture : UInt8 → Bool) (period base : Nat) (mem : List UInt8) :
    (∀ calls s, Run (step period base mem) {} calls s → Clock calls →
      EveryStep (step period base mem) (fun _ s c => Sleeps period base mem s c) {} calls →
      EveryStep (step period base mem) (fun _ s c => Paced picture period mem s c) {} calls →
      OnTime picture period mem s) ∧
    (0 < period → ∀ front u rest, nalUnits mem = front ++ u :: rest →
      (∀ v ∈ front, v.2 ≠ 0) → u.2 ≠ 0 → isPicture picture mem u = true →
      front.countP isCounted < front.countP (isPicture picture mem) →
      ∃ calls s, Run (step period base mem) {} calls s ∧ Clock calls ∧
        EveryStep (step period base mem) (fun _ s c => Sleeps period base mem s c) {} calls ∧
        ¬ OnTime picture period mem s) :=
  ⟨fun _ _ hrun hclock hsleep hpaced => (kept_of_run hclock hsleep hpaced hrun).onTime,
    fun hperiod _ _ _ hunits hne hu hpicture hfew =>
      exists_late hperiod hunits hne hu hpicture hfew⟩

end Step

/-- A file with one inter picture. -/
theorem sourcePacing_run_one :
    ∃ s, Run (step 16666 0 [0, 0, 1, 2]) {} [fetch] s ∧
      OnTime intraOrInter 16666 [0, 0, 1, 2] s := by
  have hrun : Run (step 16666 0 [0, 0, 1, 2]) {} [fetch] _ := run_get (by decide +kernel)
  exact ⟨_, hrun, (sourcePacing_run intraOrInter 16666 0 [0, 0, 1, 2]).1 _ _ hrun (by decide)
    (by decide +kernel) (by decide +kernel)⟩

/-- Two inter pictures of one byte, 16666 microseconds apart: the second is handed on at the
time 0. -/
theorem sourcePacing_early :
    ∃ s, Run (step 16666 0 [0, 0, 1, 2, 0, 0, 1, 2]) {} [fetch, fetch] s ∧
      Clock [fetch, fetch] ∧
      EveryStep (step 16666 0 [0, 0, 1, 2, 0, 0, 1, 2])
        (fun _ s c => Sleeps 16666 0 [0, 0, 1, 2, 0, 0, 1, 2] s c) {} [fetch, fetch] ∧
      ¬ OnTime intraOrInter 16666 [0, 0, 1, 2, 0, 0, 1, 2] s := by
  have hrun : Run (step 16666 0 [0, 0, 1, 2, 0, 0, 1, 2]) {} [fetch, fetch] _ :=
    run_get (by decide +kernel)
  refine ⟨_, hrun, by decide, by decide +kernel, fun hon => ?_⟩
  have hdue := hon 1 { nal := (7, 1), fTo := [2], sleep := 0, awake := 0 } (by decide +kernel)
  exact absurd hdue (by decide +kernel)

end RtpBenchmarks.Live555.Source
