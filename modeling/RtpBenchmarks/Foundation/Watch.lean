import Mathlib.Algebra.Group.Nat.Defs
import RtpBenchmarks.Foundation.Runs

set_option autoImplicit false

/-!
# Foundation: inactivity watches

A program that waits for something which may stop coming looks now and then whether
anything has come since it last looked, and gives up when nothing has.  Arrivals and checks
are the signals of such a watch.

A flag that each arrival sets and each check clears, and a counter of which each check keeps
a copy, are two ways to write one.  Both are a `Watch`: a check at which nothing has come
since the check before gives up, the first check never does, and nothing else does.  So the
watch has expired in a run exactly when two of its checks have come in a row.
-/

namespace RtpBenchmarks.Foundation

/-- What a watch sees. -/
inductive Signal where
  | arrival
  | check
  deriving DecidableEq, Repr

/-- Two checks have come in a row. -/
def Lapsed (signals : List Signal) : Prop :=
  [.check, .check] <:+: signals

/-- The last signal is a check. -/
def Quiet (signals : List Signal) : Prop :=
  signals.getLast? = some .check

instance (signals : List Signal) : Decidable (Lapsed signals) :=
  inferInstanceAs (Decidable (_ <:+: _))

theorem not_lapsed_nil : ¬ Lapsed [] := by decide

theorem not_quiet_nil : ¬ Quiet [] := by simp [Quiet]

theorem quiet_concat {signals : List Signal} {x : Signal} :
    Quiet (signals ++ [x]) ↔ x = .check := by
  simp [Quiet]

theorem lapsed_concat {signals : List Signal} {x : Signal} :
    Lapsed (signals ++ [x]) ↔ Lapsed signals ∨ x = .check ∧ Quiet signals := by
  have hlast : [Signal.check, .check] <:+ signals ++ [x] ↔ x = .check ∧ Quiet signals := by
    rw [List.suffix_concat_iff]
    constructor
    · rintro (h | ⟨t, ht, hsuffix⟩)
      · cases h
      · have hconcat : [Signal.check] ++ [.check] = t ++ [x] := ht
        obtain ⟨rfl, hx⟩ := List.append_inj' hconcat rfl
        obtain ⟨front, rfl⟩ := hsuffix
        exact ⟨(List.singleton_inj.mp hx).symm, by simp [Quiet]⟩
    · rintro ⟨rfl, hquiet⟩
      obtain ⟨front, rfl⟩ := List.getLast?_eq_some_iff.mp hquiet
      exact .inr ⟨[.check], rfl, List.suffix_append front _⟩
  rw [Lapsed, List.infix_concat_iff, hlast, or_comm]
  rfl

/-- A process with a watch: which of its steps are signals, whether it is still watching, when
nothing has come since the last check, and when the watch has expired.  Once it no longer
watches it checks no more. -/
structure Watch {σ α : Type} (step : σ → α → Option σ) (signal : α → Option Signal)
    (watching quiet expired : σ → Prop) where
  /-- what is known of the states that are reached -/
  Inv : σ → Prop
  inv_step : ∀ {s s' : σ} {a : α}, Inv s → step s a = some s' → Inv s'
  expired_stops : ∀ {s : σ}, expired s → ¬ watching s
  stopped_step : ∀ {s s' : σ} {a : α}, Inv s → step s a = some s' → ¬ watching s →
    ¬ watching s' ∧ (expired s' ↔ expired s) ∧ signal a ≠ some .check
  expired_step : ∀ {s s' : σ} {a : α}, Inv s → step s a = some s' → watching s →
    (expired s' ↔ signal a = some .check ∧ quiet s)
  quiet_arrival : ∀ {s s' : σ} {a : α}, Inv s → step s a = some s' → watching s' →
    signal a = some .arrival → ¬ quiet s'
  quiet_check : ∀ {s s' : σ} {a : α}, Inv s → step s a = some s' → watching s' →
    signal a = some .check → quiet s'
  quiet_other : ∀ {s s' : σ} {a : α}, Inv s → step s a = some s' → watching s' →
    signal a = none → (quiet s' ↔ quiet s)

namespace Watch

variable {σ α : Type} {step : σ → α → Option σ} {signal : α → Option Signal}
  {watching quiet expired : σ → Prop} {s s' : σ}

theorem lapsed_append_of_ne_check {signals : List Signal} {x : Option Signal}
    (h : x ≠ some .check) : Lapsed (signals ++ x.toList) ↔ Lapsed signals := by
  cases x with
  | none => rw [Option.toList_none, List.append_nil]
  | some x =>
    rw [Option.toList_some, lapsed_concat]
    exact or_iff_left fun hcheck => h (congrArg some hcheck.1)

/-- As long as the process is watching, nothing has come since the last check exactly when
the last signal is a check. -/
theorem run_spec (w : Watch step signal watching quiet expired) (hinv : w.Inv s)
    (hquiet : ¬ quiet s) (hexpired : ¬ expired s) {as : List α} (hrun : Run step s as s') :
    w.Inv s' ∧ (expired s' ↔ Lapsed (as.filterMap signal)) ∧
      (watching s' → (quiet s' ↔ Quiet (as.filterMap signal))) := by
  refine hrun.invariant (I := fun as s' => w.Inv s' ∧
    (expired s' ↔ Lapsed (as.filterMap signal)) ∧
      (watching s' → (quiet s' ↔ Quiet (as.filterMap signal)))) ?_ ?_
  · exact ⟨hinv, iff_of_false hexpired not_lapsed_nil, fun _ => iff_of_false hquiet not_quiet_nil⟩
  · rintro done mid a mid' - ⟨hmid, hlapsed, hlast⟩ hstep
    refine ⟨w.inv_step hmid hstep, ?_⟩
    have hsignals : (done ++ [a]).filterMap signal =
        done.filterMap signal ++ (signal a).toList := by
      rw [List.filterMap_append, List.filterMap_cons, List.filterMap_nil]
      cases signal a <;> rfl
    rw [hsignals]
    by_cases hwatching : watching mid
    · have hexp := w.expired_step hmid hstep hwatching
      -- the process is still watching, and so the watch has not expired before
      have hnot : ¬ Lapsed (done.filterMap signal) :=
        fun h => w.expired_stops (hlapsed.mpr h) hwatching
      rw [hlast hwatching] at hexp
      cases hsignal : signal a with
      | none =>
        rw [hsignal] at hexp
        rw [Option.toList_none, List.append_nil]
        refine ⟨iff_of_false (by simpa using hexp) hnot, fun hwatching' => ?_⟩
        rw [w.quiet_other hmid hstep hwatching' hsignal]
        exact hlast hwatching
      | some x =>
        rw [Option.toList_some, lapsed_concat, quiet_concat, or_iff_right hnot, hexp, hsignal,
          Option.some_inj]
        refine ⟨Iff.rfl, fun hwatching' => ?_⟩
        cases x with
        | arrival => exact iff_of_false (w.quiet_arrival hmid hstep hwatching' hsignal) (by decide)
        | check => exact iff_of_true (w.quiet_check hmid hstep hwatching' hsignal) rfl
    · obtain ⟨hstopped, hsame, hcheck⟩ := w.stopped_step hmid hstep hwatching
      rw [hsame, hlapsed, lapsed_append_of_ne_check hcheck]
      exact ⟨Iff.rfl, fun hwatching' => absurd hwatching' hstopped⟩

/-- The watch has expired exactly when two checks have come in a row. -/
theorem expired_iff (w : Watch step signal watching quiet expired) (hinv : w.Inv s)
    (hquiet : ¬ quiet s) (hexpired : ¬ expired s) {as : List α} (hrun : Run step s as s') :
    expired s' ↔ Lapsed (as.filterMap signal) :=
  (w.run_spec hinv hquiet hexpired hrun).2.1

end Watch

/-! ## Counters -/

/-- A watch over a counter: the first arrival sets the copy to a value that the counter does
not reach, and each check copies the counter, of which it keeps 32 bits. -/
structure CounterWatch {σ α : Type} (step : σ → α → Option σ) (signal : α → Option Signal)
    (running expired : σ → Prop) (count : σ → Nat) (copy : σ → Option Nat) where
  /-- what is known of the states that are reached -/
  Inv : σ → Prop
  inv_step : ∀ {s s' : σ} {a : α}, Inv s → step s a = some s' → Inv s'
  count_lt : ∀ {s : σ}, Inv s → running s → count s < 2 ^ 32 - 1
  running_step : ∀ {s s' : σ} {a : α}, step s a = some s' → running s
  expired_stops : ∀ {s : σ}, expired s → ¬ running s
  expired_step : ∀ {s s' : σ} {a : α}, step s a = some s' →
    (expired s' ↔ signal a = some .check ∧ copy s = some (count s))
  arrival : ∀ {s s' : σ} {a : α}, step s a = some s' → running s' →
    signal a = some .arrival →
      count s' = count s + 1 ∧ copy s' = if count s = 0 then some (2 ^ 32 - 1) else copy s
  check : ∀ {s s' : σ} {a : α}, step s a = some s' → running s' → signal a = some .check →
    count s' = count s ∧ copy s' = some (count s % 2 ^ 32)
  other : ∀ {s s' : σ} {a : α}, step s a = some s' → running s' → signal a = none →
    count s' = count s ∧ copy s' = copy s

namespace CounterWatch

variable {σ α : Type} {step : σ → α → Option σ} {signal : α → Option Signal}
  {running expired : σ → Prop} {count : σ → Nat} {copy : σ → Option Nat} {s s' : σ} {a : α}

/-- The copy is what it is set to first, or a value that the counter has had. -/
def Behind (count : σ → Nat) (copy : σ → Option Nat) (s : σ) : Prop :=
  ∀ prev ∈ copy s, prev = 2 ^ 32 - 1 ∨ prev ≤ count s

theorem behind_step (w : CounterWatch step signal running expired count copy)
    (h : Behind count copy s) (hstep : step s a = some s') (hrun' : running s') :
    Behind count copy s' := by
  unfold Behind
  cases hsignal : signal a with
  | none =>
    obtain ⟨hcount, hcopy⟩ := w.other hstep hrun' hsignal
    rw [hcount, hcopy]
    exact h
  | some x =>
    cases x with
    | arrival =>
      obtain ⟨hcount, hcopy⟩ := w.arrival hstep hrun' hsignal
      rw [hcount, hcopy]
      intro prev hprev
      split_ifs at hprev
      · exact .inl (Option.some.inj hprev).symm
      · exact (h prev hprev).imp_right Nat.le_succ_of_le
    | check =>
      obtain ⟨hcount, hcopy⟩ := w.check hstep hrun' hsignal
      rw [hcount, hcopy]
      rintro _ ⟨⟩
      exact .inr (Nat.mod_le _ _)

/-- What has come since the copy was made is not in it. -/
theorem not_copy_arrival (w : CounterWatch step signal running expired count copy)
    (hinv : w.Inv s') (h : Behind count copy s) (hstep : step s a = some s')
    (hrun' : running s') (hsignal : signal a = some .arrival) :
    copy s' ≠ some (count s') := by
  have hlt := w.count_lt hinv hrun'
  obtain ⟨hcount, hcopy⟩ := w.arrival hstep hrun' hsignal
  intro hsame
  rw [hcopy] at hsame
  split_ifs at hsame
  · have hmax := Option.some.inj hsame
    omega
  · rcases h _ hsame with hmax | hle <;> omega

/-- It is a watch: nothing has come since the last check when the copy is the counter. -/
def watch (w : CounterWatch step signal running expired count copy) :
    Watch step signal running (fun s => copy s = some (count s)) expired where
  Inv s := w.Inv s ∧ (running s → Behind count copy s)
  inv_step h hstep :=
    ⟨w.inv_step h.1 hstep, fun hrun' => w.behind_step (h.2 (w.running_step hstep)) hstep hrun'⟩
  expired_stops := w.expired_stops
  stopped_step _ hstep hstopped := absurd (w.running_step hstep) hstopped
  expired_step _ hstep _ := w.expired_step hstep
  quiet_arrival h hstep hrun' hsignal :=
    w.not_copy_arrival (w.inv_step h.1 hstep) (h.2 (w.running_step hstep)) hstep hrun' hsignal
  quiet_check h hstep hrun' hsignal := by
    have hlt := w.count_lt h.1 (w.running_step hstep)
    obtain ⟨hcount, hcopy⟩ := w.check hstep hrun' hsignal
    rw [hcount, hcopy, Nat.mod_eq_of_lt (by omega)]
  quiet_other _ hstep hrun' hsignal := by
    obtain ⟨hcount, hcopy⟩ := w.other hstep hrun' hsignal
    rw [hcount, hcopy]

/-- The watch over a counter that starts without a copy has expired exactly when two checks
have come in a row. -/
theorem expired_iff (w : CounterWatch step signal running expired count copy) (hinv : w.Inv s)
    (hcopy : copy s = none) (hexpired : ¬ expired s) {as : List α} (hrun : Run step s as s') :
    expired s' ↔ Lapsed (as.filterMap signal) := by
  refine w.watch.expired_iff ⟨hinv, fun _ prev hprev => ?_⟩ ?_ hexpired hrun
  · rw [hcopy] at hprev
    cases hprev
  · rw [hcopy]
    rintro ⟨⟩

end CounterWatch

/-! ## Flags -/

/-- A watch over a flag, which is set at first: each arrival sets it and each check clears
it. -/
structure FlagWatch {σ α : Type} (step : σ → α → Option σ) (signal : α → Option Signal)
    (watching expired : σ → Prop) (flag : σ → Bool) : Prop where
  expired_stops : ∀ {s : σ}, expired s → ¬ watching s
  stopped_step : ∀ {s s' : σ} {a : α}, step s a = some s' → ¬ watching s →
    ¬ watching s' ∧ (expired s' ↔ expired s) ∧ signal a ≠ some .check
  expired_step : ∀ {s s' : σ} {a : α}, step s a = some s' → watching s →
    (expired s' ↔ signal a = some .check ∧ flag s = false)
  arrival : ∀ {s s' : σ} {a : α}, step s a = some s' → watching s' →
    signal a = some .arrival → flag s' = true
  check : ∀ {s s' : σ} {a : α}, step s a = some s' → watching s' → signal a = some .check →
    flag s' = false
  other : ∀ {s s' : σ} {a : α}, step s a = some s' → watching s' → signal a = none →
    flag s' = flag s

namespace FlagWatch

variable {σ α : Type} {step : σ → α → Option σ} {signal : α → Option Signal}
  {watching expired : σ → Prop} {flag : σ → Bool} {s s' : σ}

/-- It is a watch: nothing has come since the last check when the flag is clear. -/
def watch (w : FlagWatch step signal watching expired flag) :
    Watch step signal watching (fun s => flag s = false) expired where
  Inv _ := True
  inv_step _ _ := trivial
  expired_stops := w.expired_stops
  stopped_step _ := w.stopped_step
  expired_step _ := w.expired_step
  quiet_arrival _ hstep hwatching' hsignal := by
    rw [w.arrival hstep hwatching' hsignal]
    simp
  quiet_check _ := w.check
  quiet_other _ hstep hwatching' hsignal := by rw [w.other hstep hwatching' hsignal]

/-- The watch over a flag has expired exactly when two checks have come in a row. -/
theorem expired_iff (w : FlagWatch step signal watching expired flag) (hflag : flag s = true)
    (hexpired : ¬ expired s) {as : List α} (hrun : Run step s as s') :
    expired s' ↔ Lapsed (as.filterMap signal) := by
  refine w.watch.expired_iff trivial ?_ hexpired hrun
  rw [hflag]
  simp

end FlagWatch

end RtpBenchmarks.Foundation
