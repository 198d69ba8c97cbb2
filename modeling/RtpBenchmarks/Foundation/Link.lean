import Mathlib.Data.List.Perm.Subperm
import RtpBenchmarks.Foundation.Runs

set_option autoImplicit false

/-!
# Foundation: links that lose and reorder

A link carries messages in one direction.  It may hand them over in any order and lose some,
but it makes none up and copies none.  So what has been sent is what has arrived, what has
been lost and what is in flight; nothing arrives more often than it was sent, and when
nothing is lost or in flight, what was sent has arrived.
-/

namespace RtpBenchmarks.Foundation

open scoped List

/-- A link, with all that has been sent over it. -/
structure Link (α : Type) where
  sent : List α := []
  inFlight : List α := []
  arrived : List α := []
  lost : List α := []
  deriving DecidableEq, Repr

namespace Link

variable {α : Type} {l l' : Link α} {x : α} {xs : List α} {i : Nat}

def send (l : Link α) (xs : List α) : Link α :=
  { l with sent := l.sent ++ xs, inFlight := l.inFlight ++ xs }

/-- The message at this place arrives. -/
def deliver (l : Link α) (i : Nat) : Option (α × Link α) :=
  l.inFlight[i]?.map fun x =>
    (x, { l with inFlight := l.inFlight.eraseIdx i, arrived := l.arrived ++ [x] })

/-- The message at this place is lost. -/
def drop (l : Link α) (i : Nat) : Option (Link α) :=
  l.inFlight[i]?.map fun x =>
    { l with inFlight := l.inFlight.eraseIdx i, lost := l.lost ++ [x] }

/-- All messages are accounted for. -/
def Conserved (l : Link α) : Prop :=
  l.sent ~ l.arrived ++ (l.lost ++ l.inFlight)

/-- Nothing is lost or in flight. -/
def Quiet (l : Link α) : Prop :=
  l.inFlight = [] ∧ l.lost = []

theorem conserved_initial : Conserved ({} : Link α) :=
  List.Perm.nil

theorem perm_cons_eraseIdx {xs : List α} (h : xs[i]? = some x) : xs ~ x :: xs.eraseIdx i := by
  obtain ⟨hlt, rfl⟩ := List.getElem?_eq_some_iff.mp h
  exact (List.getElem_cons_eraseIdx_perm hlt).symm

theorem deliver_eq_some (h : l.deliver i = some (x, l')) :
    l.inFlight ~ x :: l'.inFlight ∧ l'.arrived = l.arrived ++ [x] ∧ l'.lost = l.lost ∧
      l'.sent = l.sent := by
  obtain ⟨y, hy, heq⟩ := Option.map_eq_some_iff.mp h
  cases heq
  exact ⟨perm_cons_eraseIdx hy, rfl, rfl, rfl⟩

theorem drop_eq_some (h : l.drop i = some l') :
    ∃ x, l.inFlight ~ x :: l'.inFlight ∧ l'.lost = l.lost ++ [x] ∧ l'.arrived = l.arrived ∧
      l'.sent = l.sent := by
  obtain ⟨x, hx, rfl⟩ := Option.map_eq_some_iff.mp h
  exact ⟨x, perm_cons_eraseIdx hx, rfl, rfl, rfl⟩

theorem Conserved.send (h : l.Conserved) (xs : List α) : (l.send xs).Conserved := by
  change l.sent ++ xs ~ l.arrived ++ (l.lost ++ (l.inFlight ++ xs))
  calc l.sent ++ xs ~ (l.arrived ++ (l.lost ++ l.inFlight)) ++ xs := h.append_right xs
    _ = l.arrived ++ (l.lost ++ (l.inFlight ++ xs)) := by simp only [List.append_assoc]

theorem Conserved.deliver (h : l.Conserved) (hs : l.deliver i = some (x, l')) :
    l'.Conserved := by
  obtain ⟨hflight, harrived, hlost, hsent⟩ := deliver_eq_some hs
  unfold Conserved
  rw [hsent, harrived, hlost]
  calc l.sent ~ l.arrived ++ (l.lost ++ l.inFlight) := h
    _ ~ l.arrived ++ (l.lost ++ x :: l'.inFlight) := (hflight.append_left _).append_left _
    _ ~ l.arrived ++ (x :: (l.lost ++ l'.inFlight)) := List.perm_middle.append_left _
    _ = l.arrived ++ [x] ++ (l.lost ++ l'.inFlight) := by simp

theorem Conserved.drop (h : l.Conserved) (hs : l.drop i = some l') : l'.Conserved := by
  obtain ⟨x, hflight, hlost, harrived, hsent⟩ := drop_eq_some hs
  unfold Conserved
  rw [hsent, harrived, hlost]
  calc l.sent ~ l.arrived ++ (l.lost ++ l.inFlight) := h
    _ ~ l.arrived ++ (l.lost ++ x :: l'.inFlight) := (hflight.append_left _).append_left _
    _ = l.arrived ++ (l.lost ++ [x] ++ l'.inFlight) := by simp

/-- Nothing arrives more often than it was sent. -/
theorem Conserved.arrived_subperm (h : l.Conserved) : l.arrived <+~ l.sent :=
  (List.sublist_append_left _ _).subperm.trans h.symm.subperm

/-- Of every kind, no more arrive than were sent. -/
theorem Conserved.countP_le (h : l.Conserved) (p : α → Bool) :
    l.arrived.countP p ≤ l.sent.countP p :=
  h.arrived_subperm.countP_le p

/-- When nothing is lost or in flight, what was sent has arrived. -/
theorem Conserved.perm_of_quiet (h : l.Conserved) (hquiet : l.Quiet) : l.arrived ~ l.sent := by
  unfold Conserved at h
  rw [hquiet.1, hquiet.2, List.append_nil, List.append_nil] at h
  exact h.symm

end Link

end RtpBenchmarks.Foundation
