import Mathlib.Data.List.Basic

set_option autoImplicit false

/-!
# Foundation: in-order channels that lose messages

The messages are numbered in the order in which they are sent.  They arrive in that
order, but any of them may be lost on the way.  A receiver that counts what arrives
knows the number of a message only as long as none has been lost: `InOrder` says how far
the count can be behind, and `Complete` that it is not.
-/

namespace RtpBenchmarks.Foundation

/-- How many messages have been sent and received, and those on the way, first the next
to arrive. -/
structure Channel where
  sent : Nat := 0
  received : Nat := 0
  inFlight : List Nat := []
  deriving DecidableEq, Repr

namespace Channel

/-- The next message is sent. -/
def send (c : Channel) : Channel :=
  { c with sent := c.sent + 1, inFlight := c.inFlight ++ [c.sent] }

/-- The first message on the way arrives. -/
def receive (c : Channel) : Channel :=
  { c with received := c.received + 1, inFlight := c.inFlight.tail }

/-- A message on the way is lost. -/
def lose (c : Channel) (i : Nat) : Channel :=
  { c with inFlight := c.inFlight.eraseIdx i }

/-- The messages on the way have been sent, and each has a number that is at least that of
its arrival if nothing in front of it is lost. -/
structure InOrder (c : Channel) : Prop where
  room : c.received + c.inFlight.length ≤ c.sent
  later : ∀ j n, c.inFlight[j]? = some n → c.received + j ≤ n ∧ n < c.sent

/-- No message has been lost: those on the way are all that have not arrived. -/
def Complete (c : Channel) : Prop :=
  c.inFlight = List.range' c.received (c.sent - c.received) ∧ c.received ≤ c.sent

theorem inOrder_initial : InOrder {} :=
  ⟨Nat.le_refl 0, by simp⟩

theorem complete_initial : Complete {} :=
  ⟨rfl, Nat.le_refl 0⟩

section Steps

variable {c : Channel}

theorem InOrder.send (h : c.InOrder) : c.send.InOrder := by
  constructor
  · have := h.room
    simp only [Channel.send, List.length_append, List.length_singleton]
    omega
  · intro j n hj
    rcases Nat.lt_trichotomy j c.inFlight.length with hlt | rfl | hgt
    · have hold := h.later j n ((List.getElem?_append_left hlt).symm.trans hj)
      exact ⟨hold.1, Nat.lt_succ_of_lt hold.2⟩
    · obtain rfl : c.sent = n := by simpa [Channel.send] using hj
      exact ⟨h.room, Nat.lt_succ_self _⟩
    · simp only [Channel.send] at hj
      rw [List.getElem?_eq_none (by simp; omega)] at hj
      cases hj

/-- A message that arrives has been sent, and its number is at least that of its arrival. -/
theorem InOrder.first (h : c.InOrder) {n : Nat} {rest : List Nat}
    (hfirst : c.inFlight = n :: rest) : c.received ≤ n ∧ n < c.sent :=
  h.later 0 n (by rw [hfirst]; rfl)

theorem InOrder.receive (h : c.InOrder) (hne : c.inFlight ≠ []) : c.receive.InOrder := by
  obtain ⟨n, rest, hcons⟩ := List.exists_cons_of_ne_nil hne
  constructor
  · have hroom := h.room
    rw [hcons, List.length_cons] at hroom
    simp only [Channel.receive, hcons, List.tail_cons]
    omega
  · intro j m hj
    simp only [Channel.receive, hcons, List.tail_cons] at hj ⊢
    have hnext := h.later (j + 1) m (by rw [hcons, List.getElem?_cons_succ, hj])
    omega

theorem InOrder.lose (h : c.InOrder) (i : Nat) : (c.lose i).InOrder := by
  constructor
  · have hroom := h.room
    have hle := List.length_eraseIdx_le c.inFlight i
    simp only [Channel.lose]
    omega
  · intro j n hj
    simp only [Channel.lose, List.getElem?_eraseIdx] at hj
    split_ifs at hj
    · exact h.later j n hj
    · have hnext := h.later (j + 1) n hj
      simp only [Channel.lose]
      omega

theorem Complete.send (h : c.Complete) : c.send.Complete := by
  obtain ⟨hall, hle⟩ := h
  refine ⟨?_, Nat.le_succ_of_le hle⟩
  simp only [Channel.send, hall, Nat.succ_sub hle, List.range'_concat, Nat.one_mul]
  rw [Nat.add_sub_cancel' hle]

theorem Complete.receive (h : c.Complete) (hne : c.inFlight ≠ []) : c.receive.Complete := by
  obtain ⟨hall, hle⟩ := h
  have hlt : c.received < c.sent := by
    rw [hall] at hne
    have hlen := List.length_pos_of_ne_nil hne
    rw [List.length_range'] at hlen
    omega
  refine ⟨?_, hlt⟩
  have hsub : c.sent - c.received = c.sent - (c.received + 1) + 1 := by omega
  simp only [Channel.receive, hall, hsub, List.range'_succ, List.tail_cons]

/-- As long as nothing is lost the count of arrivals is the number of the next. -/
theorem Complete.first (h : c.Complete) {n : Nat} {rest : List Nat}
    (hfirst : c.inFlight = n :: rest) : n = c.received := by
  rw [h.1] at hfirst
  cases hk : c.sent - c.received with
  | zero => simp [hk] at hfirst
  | succ k =>
    rw [hk, List.range'_succ] at hfirst
    exact (List.cons.inj hfirst).1.symm

end Steps

end Channel

end RtpBenchmarks.Foundation
