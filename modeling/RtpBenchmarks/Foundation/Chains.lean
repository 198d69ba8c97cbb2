set_option autoImplicit false

/-!
# Foundation: chains of records

A reader that goes through records finds the first where it begins, and every other one where
the one before it stops.  `starts p a` says that the record `a` is the one that is found at
`p`; what it has to do with `p` is left open.
-/

namespace RtpBenchmarks.Foundation

variable {α : Type}

/-- The first record starts at `p`, and every other one where the one before it stops. -/
def Chained (starts : Nat → α → Prop) (stop : α → Nat) : Nat → List α → Prop
  | _, [] => True
  | p, a :: as => starts p a ∧ Chained starts stop (stop a) as

/-- Where the last record stops. -/
def chainEnd (stop : α → Nat) (p : Nat) (as : List α) : Nat :=
  as.foldl (fun _ a => stop a) p

theorem chainEnd_of_getLast? {stop : α → Nat} {p : Nat} {as : List α} {a : α}
    (h : as.getLast? = some a) : chainEnd stop p as = stop a := by
  obtain ⟨front, rfl⟩ := List.getLast?_eq_some_iff.mp h
  rw [chainEnd, List.foldl_append]
  rfl

namespace Chained

variable {starts : Nat → α → Prop} {stop : α → Nat} {p i : Nat} {as : List α} {a b : α}

theorem head (h : Chained starts stop p as) (ha : as.head? = some a) : starts p a := by
  cases as with
  | nil => cases ha
  | cons b as =>
    obtain rfl := Option.some.inj ha
    exact h.1

/-- Of two records in a row the second starts where the first stops. -/
theorem next (h : Chained starts stop p as) (ha : as[i]? = some a) (hb : as[i + 1]? = some b) :
    starts (stop a) b := by
  induction as generalizing p i with
  | nil => cases ha
  | cons c as ih =>
    cases i with
    | zero =>
      obtain rfl := Option.some.inj ha
      exact h.2.head (by rw [List.head?_eq_getElem?]; exact hb)
    | succ i => exact ih h.2 ha hb

/-- Where records do not stop before they start, none starts before the first. -/
theorem mem (h : Chained starts stop p as) (hle : ∀ q c, starts q c → q ≤ stop c)
    (ha : a ∈ as) : ∃ q, starts q a ∧ p ≤ q := by
  induction as generalizing p with
  | nil => cases ha
  | cons c as ih =>
    rcases List.mem_cons.mp ha with rfl | ha
    · exact ⟨p, h.1, Nat.le_refl p⟩
    · obtain ⟨q, hq, hstop⟩ := ih h.2 ha
      exact ⟨q, hq, Nat.le_trans (hle p c h.1) hstop⟩

/-- The records do not overlap. -/
theorem pairwise (h : Chained starts stop p as) (hle : ∀ q c, starts q c → q ≤ stop c) :
    as.Pairwise fun a b => ∃ q, starts q b ∧ stop a ≤ q := by
  induction as generalizing p with
  | nil => exact List.Pairwise.nil
  | cons c as ih => exact List.pairwise_cons.mpr ⟨fun b hb => h.2.mem hle hb, ih h.2⟩

end Chained

end RtpBenchmarks.Foundation
