import Mathlib.Logic.Function.Basic
import RtpBenchmarks.Foundation.Watch
import RtpBenchmarks.Uvgrtp.VpccReceiver

set_option autoImplicit false

/-!
# Receivers of V-PCC streams (`uvgrtp/vpcc_receiver.cc`, `uvgrtp/vpcc_latency_receiver.cc`)

Both programs install a hook on each of the four streams and look now and then whether a frame
has come.  When none has, they destroy the streams one after the other; until a stream is
destroyed, its hook may still be called.

The hooks of the one keep the results of their stream; those of the other send each frame back
and count it.
-/

namespace RtpBenchmarks.Uvgrtp.VpccLoop

open RtpBenchmarks.Foundation
open RtpBenchmarks.V3c (RtpFrame V3cUnitType)

/-! ## The code -/

/-- The streams, in the order in which they are destroyed. -/
def streams : List V3cUnitType :=
  [.ad, .ovd, .gvd, .avd]

theorem mem_streams {t : V3cUnitType} : t ∈ streams ↔ t.hasStream = true := by
  cases t <;> decide

/-- Where the program is: in its loop, or behind it, with so many streams destroyed. -/
inductive Phase where
  | waiting
  | closing (destroyed : Nat)
  deriving DecidableEq, Repr

/-- The streams whose hooks may be called. -/
def Phase.streams : Phase → List V3cUnitType
  | .waiting => VpccLoop.streams
  | .closing destroyed => VpccLoop.streams.drop destroyed

theorem Phase.hasStream_of_mem {p : Phase} {t : V3cUnitType} (h : t ∈ p.streams) :
    t.hasStream = true := by
  rw [← mem_streams]
  cases p with
  | waiting => exact h
  | closing destroyed => exact List.mem_of_mem_drop h

/-- `frame_received`, where the program is, and what the hooks keep. -/
structure State (R : Type) where
  frameReceived : Bool := true
  phase : Phase := .waiting
  results : V3cUnitType → R

/-- A hook: what it does to the results of its stream, and whether it sets `frame_received`. -/
structure Hook (R F : Type) where
  run : R → F → R
  sets : F → Bool

/-- A call of the hook of a stream, a look at `frame_received`, or the destruction of a
stream. -/
inductive Event (F : Type) where
  | call (t : V3cUnitType) (f : F)
  | look
  | destroy
  deriving DecidableEq, Repr

variable {R F : Type}

/-- A step of the program; `none` where it cannot be taken. -/
def step (hook : Hook R F) (s : State R) : Event F → Option (State R)
  | .call t f =>
    if t ∈ s.phase.streams then
      some { s with
        results := Function.update s.results t (hook.run (s.results t) f)
        frameReceived := s.frameReceived || hook.sets f }
    else none
  | .look =>
    match s.phase with
    | .waiting =>
      if s.frameReceived then some { s with frameReceived := false }
      else some { s with phase := .closing 0 }
    | .closing _ => none
  | .destroy =>
    match s.phase with
    | .waiting => none
    | .closing destroyed =>
      if destroyed < streams.length then some { s with phase := .closing (destroyed + 1) }
      else none

/-- The calls that the loop waits for. -/
def signal (hook : Hook R F) : Event F → Option Signal
  | .call _ f => if hook.sets f then some .arrival else none
  | .look => some .check
  | .destroy => none

theorem signal_call (hook : Hook R F) (t : V3cUnitType) (f : F) :
    signal hook (.call t f) = if hook.sets f then some .arrival else none := rfl

/-- The call of this stream's hook. -/
def Event.on (t : V3cUnitType) : Event F → Option F
  | .call u f => if u = t then some f else none
  | .look | .destroy => none

/-- The calls of a stream's hook. -/
def calls (evs : List (Event F)) (t : V3cUnitType) : List F :=
  evs.filterMap (Event.on t)

/-! ## Any run -/

section Steps

variable {hook : Hook R F} {s s' : State R} {e : Event F}

/-- What a step can do: its guards, and the state it leaves. -/
inductive Took (hook : Hook R F) (s : State R) : Event F → State R → Prop where
  | call {t : V3cUnitType} {f : F} (mem : t ∈ s.phase.streams) :
      Took hook s (.call t f) { s with
        results := Function.update s.results t (hook.run (s.results t) f)
        frameReceived := s.frameReceived || hook.sets f }
  | again (waiting : s.phase = .waiting) (fresh : s.frameReceived = true) :
      Took hook s .look { s with frameReceived := false }
  | leave (waiting : s.phase = .waiting) (quiet : s.frameReceived = false) :
      Took hook s .look { s with phase := .closing 0 }
  | destroy {destroyed : Nat} (closing : s.phase = .closing destroyed) :
      Took hook s .destroy { s with phase := .closing (destroyed + 1) }

theorem took_of_step (h : step hook s e = some s') : Took hook s e s' := by
  cases e with
  | call t f =>
    obtain ⟨hmem, h⟩ := Option.ite_none_right_eq_some.mp h
    obtain rfl := Option.some.inj h
    exact .call hmem
  | look =>
    simp only [step] at h
    split at h
    · next hwaiting =>
      split_ifs at h with hfresh
      · obtain rfl := Option.some.inj h
        exact .again hwaiting hfresh
      · obtain rfl := Option.some.inj h
        exact .leave hwaiting (Bool.eq_false_iff.mpr hfresh)
    · cases h
  | destroy =>
    simp only [step] at h
    split at h
    · cases h
    · next hclosing =>
      obtain ⟨-, h⟩ := Option.ite_none_right_eq_some.mp h
      obtain rfl := Option.some.inj h
      exact .destroy hclosing

/-- The loop is a watch over the flag. -/
theorem watch (hook : Hook R F) : FlagWatch (step hook) (signal hook)
    (fun s => s.phase = .waiting) (fun s => s.phase ≠ .waiting) State.frameReceived where
  expired_stops h := h
  stopped_step hs hstopped := by
    cases took_of_step hs with
    | call mem =>
      refine ⟨hstopped, Iff.rfl, ?_⟩
      rw [signal_call]
      split_ifs <;> simp
    | again waiting | leave waiting => exact absurd waiting hstopped
    | destroy closing => simp [closing, signal]
  expired_step hs hwaiting := by
    cases took_of_step hs with
    | call mem =>
      rw [signal_call]
      split_ifs <;> simp [hwaiting]
    | again waiting fresh => simp [waiting, fresh]
    | leave waiting quiet => simp [signal, quiet]
    | destroy closing => cases closing.symm.trans hwaiting
  arrival hs _ hsignal := by
    cases took_of_step hs with
    | call mem =>
      rw [signal_call] at hsignal
      split_ifs at hsignal with hsets
      change (_ || hook.sets _) = true
      rw [hsets, Bool.or_true]
    | again | leave | destroy => cases hsignal
  check hs hwaiting' hsignal := by
    cases took_of_step hs with
    | call mem =>
      rw [signal_call] at hsignal
      split_ifs at hsignal
      cases hsignal
    | again => rfl
    | leave => cases hwaiting'
    | destroy => cases hsignal
  other hs _ hsignal := by
    cases took_of_step hs with
    | call mem =>
      rw [signal_call] at hsignal
      split_ifs at hsignal with hsets
      change (_ || hook.sets _) = _
      rw [Bool.eq_false_iff.mpr hsets, Bool.or_false]
    | again | leave => cases hsignal
    | destroy => rfl

theorem on_call (t u : V3cUnitType) (f : F) :
    (Event.call u f).on t = if u = t then some f else none := rfl

theorem calls_concat (evs : List (Event F)) (e : Event F) (t : V3cUnitType) :
    calls (evs ++ [e]) t = calls evs t ++ (e.on t).toList := by
  rw [calls, List.filterMap_append, List.filterMap_cons, List.filterMap_nil]
  cases e.on t <;> rfl

end Steps

/-- In any run the loop is over exactly when it has looked twice without a call that counts in
between, and what the hook of a stream keeps comes from the calls on that stream. -/
theorem run_spec {hook : Hook R F} {r : R} {evs : List (Event F)} {s : State R}
    (hrun : Run (step hook) { results := fun _ => r } evs s) :
    (s.phase ≠ .waiting ↔ Lapsed (evs.filterMap (signal hook))) ∧
      (∀ t, s.results t = (calls evs t).foldl hook.run r) ∧
      ∀ t f, .call t f ∈ evs → t.hasStream = true := by
  refine ⟨(watch hook).expired_iff rfl (by simp) hrun, ?_⟩
  refine hrun.invariant (I := fun evs s => (∀ t, s.results t = (calls evs t).foldl hook.run r) ∧
    ∀ t f, .call t f ∈ evs → t.hasStream = true) ⟨fun _ => rfl, fun _ _ h => by cases h⟩ ?_
  rintro done mid e mid' - ⟨hresults, hstreams⟩ hs
  have hsame : mid'.results = mid.results → (∀ t, e.on t = none) → ∀ t,
      mid'.results t = (calls (done ++ [e]) t).foldl hook.run r := by
    intro hmid he t
    rw [calls_concat, he, hmid, hresults, Option.toList_none, List.append_nil]
  cases took_of_step hs with
  | again | leave | destroy =>
    refine ⟨hsame rfl fun _ => rfl, fun t f h => hstreams t f ?_⟩
    rcases List.mem_append.mp h with h | h
    · exact h
    · cases List.mem_singleton.mp h
  | @call t f mem =>
    constructor
    · intro u
      rw [calls_concat, List.foldl_append, ← hresults, on_call]
      by_cases hu : t = u
      · subst hu
        rw [if_pos rfl]
        exact Function.update_self ..
      · rw [if_neg hu]
        exact Function.update_of_ne (Ne.symm hu) ..
    · intro u g h
      rcases List.mem_append.mp h with h | h
      · exact hstreams u g h
      · cases List.mem_singleton.mp h
        exact Phase.hasStream_of_mem mem

end RtpBenchmarks.Uvgrtp.VpccLoop
