import Mathlib.Data.List.Count
import Mathlib.Data.List.Perm.Basic
import RtpBenchmarks.Foundation.Runs

set_option autoImplicit false

/-!
# `udperf`

In every round the client sends `MAX_PKTS` datagrams and waits for a count; the server
counts datagrams until it has `MAX_PKTS` or none has come for two seconds, and replies over
TCP.  Datagrams carry no round number, and the server reads whatever waits in its socket
before it looks at the limit again.

The datagrams of the model are the numbers of the rounds they are sent in, which no step of
the programs can see.  They may be lost, delayed and reordered; replies are neither.
-/

namespace RtpBenchmarks.Udperf

open RtpBenchmarks.Foundation

/-! ## The programs -/

/-- `MAX_ROUNDS`, `MAX_PKTS`, and the packet sizes given to the client and to the server. -/
structure Params where
  maxRounds : Nat := 10
  maxPkts : Nat := 350000
  clientPacketSize : Nat
  serverPacketSize : Nat
  deriving DecidableEq, Repr

/-- Where `client` stands: about to test `k < MAX_PKTS` in a round, in the `recv` of a
round, or behind the loops. -/
inductive Client where
  | sending (i k : Nat)
  | waiting (i : Nat)
  | done
  deriving DecidableEq, Repr

/-- Where `server` stands in a round: at the test of the count, in `select`, in the inner
loop, or at `send`. -/
inductive ServerPhase where
  | test
  | select
  | drain
  | reply
  | done
  deriving DecidableEq, Repr

/-- `i` and `npkts` of `server`. -/
structure Server where
  i : Nat := 0
  npkts : Nat := 0
  phase : ServerPhase
  deriving DecidableEq, Repr

/-- Both programs, the datagrams on the network and in the server's socket, the replies on
the TCP connection, and what the client has received.  `reached` records the datagrams that
came to the socket and `counted` those that were counted, each with the round of the server
in which it was. -/
structure System where
  client : Client
  server : Server
  inFlight : List Nat := []
  socket : List Nat := []
  replies : List Nat := []
  pkts : List Nat := []
  reached : List Nat := []
  counted : List (Nat × Nat) := []
  deriving DecidableEq, Repr

/-- The outer loop of `client` at round `i`. -/
def clientRound (p : Params) (i : Nat) : Client :=
  if i < p.maxRounds then .sending i 0 else .done

/-- The outer loop of `server` at round `i`. -/
def serverRound (p : Params) (i : Nat) : Server :=
  { i, npkts := 0, phase := if i < p.maxRounds then .test else .done }

def initial (p : Params) : System :=
  { client := clientRound p 0, server := serverRound p 0 }

/-- A step of the client; `none` while it is blocked or when it has ended. -/
def clientStep (p : Params) (s : System) : Option System :=
  match s.client with
  | .sending i k =>
    if k < p.maxPkts then
      some { s with client := .sending i (k + 1), inFlight := i :: s.inFlight }
    else some { s with client := .waiting i }
  | .waiting i =>
    match s.replies with
    | [] => none
    | pkts :: replies =>
      some { s with client := clientRound p (i + 1), replies, pkts := s.pkts ++ [pkts] }
  | .done => none

/-- A step of the server. -/
def serverStep (p : Params) (s : System) : Option System :=
  match s.server.phase with
  | .test =>
    if s.server.npkts ≠ p.maxPkts then some { s with server.phase := .select }
    else some { s with server.phase := .reply }
  | .select => if s.socket = [] then none else some { s with server.phase := .drain }
  | .drain =>
    match s.socket with
    | [] => some { s with server.phase := .test }
    | datagram :: socket =>
      -- `recv` returns the size of what it copies
      if 0 < min p.clientPacketSize p.serverPacketSize then
        some { s with
          socket
          server.npkts := s.server.npkts + 1
          counted := (s.server.i, datagram) :: s.counted }
      else some { s with socket, server.phase := .test }
  | .reply =>
    some { s with
      server := serverRound p (s.server.i + 1)
      replies := s.replies ++ [s.server.npkts] }
  | .done => none

/-- `select` returns zero. -/
def timeoutStep (s : System) : Option System :=
  if s.server.phase = .select ∧ s.socket = [] then some { s with server.phase := .reply }
  else none

/-- An atomic step: of the client, of the server, the timeout of `select`, or the arrival
or the loss of a datagram. -/
inductive Event where
  | client
  | server
  | timeout
  | deliver (j : Nat)
  | lose (j : Nat)
  deriving DecidableEq, Repr

/-- A step of the system; `none` where it cannot be taken. -/
def step (p : Params) (s : System) : Event → Option System
  | .client => clientStep p s
  | .server => serverStep p s
  | .timeout => timeoutStep s
  | .deliver j =>
    match s.inFlight[j]? with
    | none => none
    | some datagram =>
      some { s with
        inFlight := s.inFlight.eraseIdx j
        socket := s.socket ++ [datagram]
        reached := datagram :: s.reached }
  | .lose j =>
    match s.inFlight[j]? with
    | none => none
    | some _ => some { s with inFlight := s.inFlight.eraseIdx j }

/-- How many datagrams of round `r` the client has sent. -/
def Client.sent (p : Params) (r : Nat) : Client → Nat
  | .sending i k => if r < i then p.maxPkts else if r = i then k else 0
  | .waiting i => if r ≤ i then p.maxPkts else 0
  | .done => if r < p.maxRounds then p.maxPkts else 0

/-- No datagram of round `r` is unsent, on the network or in the socket. -/
def System.Over (p : Params) (s : System) (r : Nat) : Prop :=
  s.client.sent p r = p.maxPkts ∧ s.inFlight.count r = 0 ∧ s.socket.count r = 0

instance (p : Params) (s : System) (r : Nat) : Decidable (s.Over p r) :=
  inferInstanceAs (Decidable (_ ∧ _ ∧ _))

/-- The timeout fires only when no datagram of the server's round is still to come. -/
def Quiet (p : Params) (s : System) (e : Event) : Prop :=
  e = .timeout → s.Over p s.server.i

instance (p : Params) (s : System) (e : Event) : Decidable (Quiet p s e) :=
  inferInstanceAs (Decidable (_ → _))

/-! ## Datagrams sent -/

/-- The round in which the client is. -/
def Client.round (p : Params) : Client → Nat
  | .sending i _ => i
  | .waiting i => i
  | .done => p.maxRounds

/-- The counters of the client are in their ranges. -/
def Client.InRange (p : Params) : Client → Prop
  | .sending i k => i < p.maxRounds ∧ k ≤ p.maxPkts
  | .waiting i => i < p.maxRounds
  | .done => True

section Sent

variable {p : Params} {c : Client} {i k r : Nat}

theorem Client.sent_le (h : c.InRange p) : c.sent p r ≤ p.maxPkts := by
  cases c with
  | sending i k =>
    have hk := h.2
    simp only [Client.sent]
    split_ifs <;> omega
  | waiting i =>
    simp only [Client.sent]
    split_ifs <;> omega
  | done =>
    simp only [Client.sent]
    split_ifs <;> omega

/-- Nothing of a later round has been sent. -/
theorem Client.le_round (h : 0 < c.sent p r) : r ≤ c.round p := by
  cases c with
  | sending i k =>
    simp only [Client.sent] at h
    simp only [Client.round]
    split_ifs at h <;> omega
  | waiting i =>
    simp only [Client.sent] at h
    simp only [Client.round]
    split_ifs at h <;> omega
  | done =>
    simp only [Client.sent] at h
    simp only [Client.round]
    split_ifs at h <;> omega

theorem Client.sent_succ :
    (Client.sending i (k + 1)).sent p r =
      (Client.sending i k).sent p r + if i = r then 1 else 0 := by
  simp only [Client.sent]
  split_ifs <;> omega

theorem Client.sent_waiting :
    (Client.waiting i).sent p r = (Client.sending i p.maxPkts).sent p r := by
  simp only [Client.sent]
  split_ifs <;> omega

theorem Client.sent_clientRound (h : i < p.maxRounds) :
    (clientRound p (i + 1)).sent p r = (Client.waiting i).sent p r := by
  unfold clientRound
  split_ifs with hlast
  · simp only [Client.sent]
    split_ifs <;> omega
  · simp only [Client.sent]
    split_ifs <;> omega

theorem round_clientRound (h : i ≤ p.maxRounds) : (clientRound p i).round p = i := by
  unfold clientRound
  split_ifs
  · rfl
  · simp only [Client.round]
    omega

theorem inRange_clientRound : (clientRound p i).InRange p := by
  unfold clientRound
  split_ifs with hlt
  · exact ⟨hlt, Nat.zero_le _⟩
  · trivial

end Sent

/-! ## Invariant -/

/-- The rounds before that of the server are over, and everything counted in them has been
replied.  What reached the server has been counted or is in the socket, and what was counted
belongs to the round it was counted in. -/
structure Inv (p : Params) (s : System) : Prop where
  inRange : s.client.InRange p
  sent : ∀ r, s.reached.count r + s.inFlight.count r ≤ s.client.sent p r
  reached : ∀ r, s.reached.count r = (s.counted.map (·.2)).count r + s.socket.count r
  own : ∀ c ∈ s.counted, c.1 = c.2
  npkts : s.server.npkts = (s.counted.map (·.1)).count s.server.i
  past : ∀ c ∈ s.counted, c.1 ≤ s.server.i
  closed : ∀ r < s.server.i, s.Over p r
  reply : s.server.phase = .reply → s.Over p s.server.i
  answered : s.pkts.length = s.client.round p
  replied : (s.pkts ++ s.replies).length = s.server.i
  results : ∀ i n, (s.pkts ++ s.replies)[i]? = some n → n = s.reached.count i
  ended : s.server.phase = .done ↔ p.maxRounds ≤ s.server.i

theorem serverRound_done {p : Params} {i : Nat} :
    (serverRound p i).phase = .done ↔ p.maxRounds ≤ i := by
  unfold serverRound
  split_ifs with hlt
  · exact iff_of_false (by rintro ⟨⟩) (Nat.not_le.mpr hlt)
  · exact iff_of_true rfl (Nat.not_lt.mp hlt)

theorem inv_initial (p : Params) : Inv p (initial p) where
  inRange := inRange_clientRound
  sent := by simp [initial]
  reached := by simp [initial]
  own := by simp [initial]
  npkts := by simp [initial, serverRound]
  past := by simp [initial]
  closed := by simp [initial, serverRound]
  reply := by
    simp only [initial, serverRound]
    split_ifs <;> rintro ⟨⟩
  answered := (round_clientRound (Nat.zero_le _)).symm
  replied := rfl
  results := by simp [initial]
  ended := serverRound_done

section Steps

variable {p : Params} {s s' : System} {r : Nat}

theorem System.Over.mono (h : s.Over p r) (hsent : s'.client.sent p r = s.client.sent p r)
    (hflight : s'.inFlight.count r ≤ s.inFlight.count r)
    (hsocket : s'.socket.count r ≤ s.socket.count r) : s'.Over p r := by
  obtain ⟨h1, h2, h3⟩ := h
  exact ⟨hsent.trans h1, by omega, by omega⟩

/-- What was counted in a round, by the rounds of the datagrams. -/
theorem Inv.counted_eq (h : Inv p s) :
    s.counted.map (·.1) = s.counted.map (·.2) :=
  List.map_congr_left h.own

/-- What waits in the socket belongs to the round of the server. -/
theorem Inv.socket_own (h : Inv p s) (hr : r ∈ s.socket) : r = s.server.i := by
  have hpos : 0 < s.socket.count r := List.count_pos_iff.mpr hr
  have hsent := h.sent r
  have hreached := h.reached r
  have hle : r ≤ s.client.round p := Client.le_round (by omega)
  have hclient := h.answered
  have hserver := h.replied
  rw [List.length_append] at hserver
  rcases Nat.lt_or_ge r s.server.i with hlt | hge
  · have := (h.closed r hlt).2.2
    omega
  · omega

/-- All datagrams of a round have been counted. -/
theorem Inv.over_of_full (h : Inv p s) (hfull : s.server.npkts = p.maxPkts) :
    s.Over p s.server.i := by
  have hcount := h.npkts
  rw [h.counted_eq] at hcount
  have hreached := h.reached s.server.i
  have hsent := h.sent s.server.i
  have hle := Client.sent_le (r := s.server.i) h.inRange
  exact ⟨by omega, by omega, by omega⟩

theorem count_eraseIdx {messages : List Nat} {j m : Nat} (h : messages[j]? = some m) :
    messages.count r = (messages.eraseIdx j).count r + if m = r then 1 else 0 := by
  obtain ⟨hj, rfl⟩ := List.getElem?_eq_some_iff.mp h
  rw [← (List.getElem_cons_eraseIdx_perm hj).count_eq, List.count_cons]
  simp

theorem Inv.clientSends (h : Inv p s) {i k : Nat} (hclient : s.client = .sending i k)
    (hlt : k < p.maxPkts) :
    Inv p { s with client := .sending i (k + 1), inFlight := i :: s.inFlight } := by
  have hrange := h.inRange
  have hround := h.answered
  rw [hclient] at hrange hround
  -- a round that is over is not the one in which the client still sends
  have hother : ∀ r, s.Over p r → i ≠ r := by
    rintro r hover rfl
    have := hover.1
    simp only [hclient, Client.sent, Nat.lt_irrefl, if_false, if_true] at this
    omega
  have hkeep : ∀ r, s.Over p r → ({ s with
      client := .sending i (k + 1), inFlight := i :: s.inFlight } : System).Over p r := by
    intro r hover
    refine hover.mono ?_ ?_ (Nat.le_refl _)
    · simp only [hclient, Client.sent_succ, if_neg (hother r hover), Nat.add_zero]
    · simp [hother r hover]
  refine { h with
    inRange := ⟨hrange.1, hlt⟩
    sent := fun r => ?_
    closed := fun r hr => hkeep r (h.closed r hr)
    reply := fun hphase => hkeep _ (h.reply hphase)
    answered := hround }
  have hsent := h.sent r
  simp only [hclient] at hsent
  simp only [Client.sent_succ, List.count_cons, beq_iff_eq]
  omega

theorem Inv.clientWaits (h : Inv p s) {i : Nat} (hclient : s.client = .sending i p.maxPkts) :
    Inv p { s with client := .waiting i } := by
  have hrange := h.inRange
  have hround := h.answered
  rw [hclient] at hrange hround
  have hsame : ∀ r, (Client.waiting i).sent p r = s.client.sent p r := by
    intro r
    rw [hclient, Client.sent_waiting]
  have hkeep : ∀ r, s.Over p r → ({ s with client := .waiting i } : System).Over p r :=
    fun r hover => hover.mono (hsame r) (Nat.le_refl _) (Nat.le_refl _)
  exact { h with
    inRange := hrange.1
    sent := fun r => (hsame r).symm ▸ h.sent r
    closed := fun r hr => hkeep r (h.closed r hr)
    reply := fun hphase => hkeep _ (h.reply hphase)
    answered := hround }

theorem Inv.clientAnswered (h : Inv p s) {i pkts : Nat} {replies : List Nat}
    (hclient : s.client = .waiting i) (hreplies : s.replies = pkts :: replies) :
    Inv p { s with
      client := clientRound p (i + 1), replies, pkts := s.pkts ++ [pkts] } := by
  have hrange := h.inRange
  have hround := h.answered
  rw [hclient] at hrange hround
  have hsame : ∀ r, (clientRound p (i + 1)).sent p r = s.client.sent p r := by
    intro r
    rw [hclient, Client.sent_clientRound hrange]
  have hkeep : ∀ r, s.Over p r → ({ s with
      client := clientRound p (i + 1), replies, pkts := s.pkts ++ [pkts] } : System).Over p r :=
    fun r hover => hover.mono (hsame r) (Nat.le_refl _) (Nat.le_refl _)
  have hall : s.pkts ++ [pkts] ++ replies = s.pkts ++ s.replies := by simp [hreplies]
  exact { h with
    inRange := inRange_clientRound
    sent := fun r => (hsame r).symm ▸ h.sent r
    closed := fun r hr => hkeep r (h.closed r hr)
    reply := fun hphase => hkeep _ (h.reply hphase)
    answered := by
      rw [round_clientRound hrange, List.length_append, hround]
      rfl
    replied := (congrArg List.length hall).trans h.replied
    results := fun j n hj => h.results j n (hall ▸ hj) }

theorem Inv.clientStep (h : Inv p s) (hstep : clientStep p s = some s') : Inv p s' := by
  unfold Udperf.clientStep at hstep
  cases hclient : s.client with
  | sending i k =>
    have hrange := h.inRange
    rw [hclient] at hstep hrange
    dsimp only at hstep
    split_ifs at hstep with hlt
    · obtain rfl := Option.some.inj hstep
      exact h.clientSends hclient hlt
    · obtain rfl := Option.some.inj hstep
      obtain rfl : k = p.maxPkts := Nat.le_antisymm hrange.2 (Nat.not_lt.mp hlt)
      exact h.clientWaits hclient
  | waiting i =>
    rw [hclient] at hstep
    cases hreplies : s.replies with
    | nil =>
      rw [hreplies] at hstep
      cases hstep
    | cons pkts replies =>
      rw [hreplies] at hstep
      obtain rfl := Option.some.inj hstep
      exact h.clientAnswered hclient hreplies
  | done =>
    rw [hclient] at hstep
    cases hstep

/-- Between two phases of a round the server has not ended. -/
theorem Inv.notEnded (h : Inv p s) {phase phase' : ServerPhase} (hphase : s.server.phase = phase)
    (hne : phase ≠ .done) (hne' : phase' ≠ .done) : phase' = .done ↔ p.maxRounds ≤ s.server.i := by
  rw [← h.ended, hphase]
  exact iff_of_false hne' hne

/-- The server counts a datagram of its round. -/
theorem Inv.serverCounts (h : Inv p s) {datagram : Nat} {socket : List Nat}
    (hphase : s.server.phase = .drain) (hsocket : s.socket = datagram :: socket) :
    Inv p { s with
      socket
      server.npkts := s.server.npkts + 1
      counted := (s.server.i, datagram) :: s.counted } := by
  obtain rfl := h.socket_own (r := datagram) (by simp [hsocket])
  exact { h with
    reached := fun r => by
      have hreached := h.reached r
      simp only [hsocket, List.count_cons] at hreached
      simp only [List.map_cons, List.count_cons]
      omega
    own := by simpa using h.own
    npkts := by simp [h.npkts]
    past := by simpa using h.past
    closed := fun r hr => (h.closed r hr).mono rfl (Nat.le_refl _)
      (by simp [hsocket, List.count_cons])
    reply := by
      intro hreply
      rw [show s.server.phase = .reply from hreply] at hphase
      cases hphase }

/-- The server replies with its count and begins the next round. -/
theorem Inv.serverReplies (h : Inv p s) (hphase : s.server.phase = .reply) :
    Inv p { s with
      server := serverRound p (s.server.i + 1)
      replies := s.replies ++ [s.server.npkts] } := by
  have hover := h.reply hphase
  have hlength := h.replied
  exact { h with
    npkts := by
      refine (List.count_eq_zero.mpr ?_).symm
      intro hmem
      obtain ⟨c, hc, hround⟩ := List.mem_map.mp hmem
      have := h.past c hc
      simp only [Udperf.serverRound] at hround
      omega
    past := fun c hc => Nat.le_succ_of_le (h.past c hc)
    closed := fun r hr => by
      rcases Nat.lt_succ_iff_lt_or_eq.mp hr with hlt | rfl
      · exact h.closed r hlt
      · exact hover
    reply := by
      simp only [Udperf.serverRound]
      split_ifs <;> rintro ⟨⟩
    replied := by
      rw [← List.append_assoc, List.length_append, hlength]
      rfl
    results := fun i n hi => by
      rw [← List.append_assoc] at hi
      rcases Nat.lt_trichotomy i (s.pkts ++ s.replies).length with hlt | rfl | hgt
      · exact h.results i n ((List.getElem?_append_left hlt).symm.trans hi)
      · rw [List.getElem?_concat_length] at hi
        obtain rfl := Option.some.inj hi
        have hreached := h.reached s.server.i
        have hcount := h.npkts
        rw [h.counted_eq] at hcount
        rw [hlength, hreached, hcount, hover.2.2, Nat.add_zero]
      · rw [List.getElem?_eq_none (by rw [List.length_append]; exact hgt)] at hi
        cases hi
    ended := serverRound_done }

theorem Inv.serverStep (h : Inv p s) (hclient : 1 ≤ p.clientPacketSize)
    (hserver : 1 ≤ p.serverPacketSize) (hstep : serverStep p s = some s') : Inv p s' := by
  unfold Udperf.serverStep at hstep
  cases hphase : s.server.phase with
  | test =>
    rw [hphase] at hstep
    dsimp only at hstep
    split_ifs at hstep with hfull
    · obtain rfl := Option.some.inj hstep
      exact { h with
        reply := by rintro ⟨⟩
        ended := h.notEnded hphase (by rintro ⟨⟩) (by rintro ⟨⟩) }
    · obtain rfl := Option.some.inj hstep
      exact { h with
        reply := fun _ => h.over_of_full (not_not.mp hfull)
        ended := h.notEnded hphase (by rintro ⟨⟩) (by rintro ⟨⟩) }
  | select =>
    rw [hphase] at hstep
    dsimp only at hstep
    split_ifs at hstep
    obtain rfl := Option.some.inj hstep
    exact { h with
      reply := by rintro ⟨⟩
      ended := h.notEnded hphase (by rintro ⟨⟩) (by rintro ⟨⟩) }
  | drain =>
    rw [hphase] at hstep
    cases hsocket : s.socket with
    | nil =>
      rw [hsocket] at hstep
      obtain rfl := Option.some.inj hstep
      exact { h with
        reached := fun r => by simpa [hsocket] using h.reached r
        closed := fun r hr => (h.closed r hr).mono rfl (Nat.le_refl _) (by simp)
        reply := by rintro ⟨⟩
        ended := h.notEnded hphase (by rintro ⟨⟩) (by rintro ⟨⟩) }
    | cons datagram socket =>
      rw [hsocket] at hstep
      dsimp only at hstep
      rw [if_pos (by omega)] at hstep
      obtain rfl := Option.some.inj hstep
      exact h.serverCounts hphase hsocket
  | reply =>
    rw [hphase] at hstep
    obtain rfl := Option.some.inj hstep
    exact h.serverReplies hphase
  | done =>
    rw [hphase] at hstep
    cases hstep

theorem Inv.timeoutStep (h : Inv p s) (hquiet : s.Over p s.server.i)
    (hstep : timeoutStep s = some s') : Inv p s' := by
  unfold Udperf.timeoutStep at hstep
  split_ifs at hstep with hselect
  obtain rfl := Option.some.inj hstep
  exact { h with
    reply := fun _ => hquiet
    ended := h.notEnded hselect.1 (by rintro ⟨⟩) (by rintro ⟨⟩) }

/-- A datagram on the network does not belong to a round that is over. -/
theorem System.Over.ne {j datagram : Nat} (h : s.Over p r) (hj : s.inFlight[j]? = some datagram) :
    datagram ≠ r := by
  rintro rfl
  exact List.count_eq_zero.mp h.2.1 (List.mem_of_getElem? hj)

theorem Inv.deliver (h : Inv p s) {j datagram : Nat} (hj : s.inFlight[j]? = some datagram) :
    Inv p { s with
      inFlight := s.inFlight.eraseIdx j
      socket := s.socket ++ [datagram]
      reached := datagram :: s.reached } := by
  have hkeep : ∀ r, s.Over p r → ({ s with
      inFlight := s.inFlight.eraseIdx j
      socket := s.socket ++ [datagram]
      reached := datagram :: s.reached } : System).Over p r := by
    intro r hover
    refine hover.mono rfl ((List.eraseIdx_sublist _ _).count_le _) ?_
    simp [hover.ne hj]
  exact { h with
    sent := fun r => by
      have hsent := h.sent r
      rw [count_eraseIdx hj] at hsent
      simp only [List.count_cons, beq_iff_eq]
      omega
    reached := fun r => by
      simp only [List.count_cons, List.count_append, List.count_nil, h.reached r]
      omega
    closed := fun r hr => hkeep r (h.closed r hr)
    reply := fun hphase => hkeep _ (h.reply hphase)
    results := fun i n hi => by
      have hlt : i < s.server.i := by
        rw [← h.replied]
        exact (List.getElem?_eq_some_iff.mp hi).1
      rw [List.count_cons_of_ne ((h.closed i hlt).ne hj)]
      exact h.results i n hi }

theorem Inv.lose (h : Inv p s) (j : Nat) :
    Inv p { s with inFlight := s.inFlight.eraseIdx j } := by
  have hle : ∀ r, (s.inFlight.eraseIdx j).count r ≤ s.inFlight.count r := fun r =>
    (List.eraseIdx_sublist _ _).count_le _
  have hkeep : ∀ r, s.Over p r →
      ({ s with inFlight := s.inFlight.eraseIdx j } : System).Over p r :=
    fun r hover => hover.mono rfl (hle r) (Nat.le_refl _)
  exact { h with
    sent := fun r => Nat.le_trans (Nat.add_le_add_left (hle r) _) (h.sent r)
    closed := fun r hr => hkeep r (h.closed r hr)
    reply := fun hphase => hkeep _ (h.reply hphase) }

theorem Inv.step (h : Inv p s) (hclient : 1 ≤ p.clientPacketSize)
    (hserver : 1 ≤ p.serverPacketSize) {e : Event} (hquiet : Quiet p s e)
    (hstep : step p s e = some s') : Inv p s' := by
  cases e with
  | client => exact h.clientStep hstep
  | server => exact h.serverStep hclient hserver hstep
  | timeout => exact h.timeoutStep (hquiet rfl) hstep
  | deliver j =>
    simp only [Udperf.step] at hstep
    cases hj : s.inFlight[j]? with
    | none =>
      rw [hj] at hstep
      cases hstep
    | some datagram =>
      rw [hj] at hstep
      obtain rfl := Option.some.inj hstep
      exact h.deliver hj
  | lose j =>
    simp only [Udperf.step] at hstep
    cases hj : s.inFlight[j]? with
    | none =>
      rw [hj] at hstep
      cases hstep
    | some datagram =>
      rw [hj] at hstep
      obtain rfl := Option.some.inj hstep
      exact h.lose j

theorem serverStep_isSome (hselect : s.server.phase ≠ .select) (hdone : s.server.phase ≠ .done) :
    (serverStep p s).isSome := by
  unfold serverStep
  split
  · split_ifs <;> rfl
  · contradiction
  · split
    · rfl
    · split_ifs <;> rfl
  · rfl
  · contradiction

/-- The client can go on unless it has ended or waits for the reply of the server's round. -/
theorem Inv.client_cases (h : Inv p s) :
    (Udperf.clientStep p s).isSome ∨ s.client = .done ∨
      s.client = .waiting s.server.i ∧ s.server.i < p.maxRounds := by
  have hanswered := h.answered
  have hreplied := h.replied
  have hrange := h.inRange
  cases hclient : s.client with
  | sending i k =>
    left
    unfold Udperf.clientStep
    simp only [hclient]
    split_ifs <;> rfl
  | waiting i =>
    rw [hclient] at hanswered hrange
    cases hreplies : s.replies with
    | nil =>
      rw [hreplies, List.append_nil, hanswered] at hreplied
      simp only [Client.round] at hreplied
      subst hreplied
      exact .inr (.inr ⟨rfl, hrange⟩)
    | cons pkts replies =>
      left
      unfold Udperf.clientStep
      simp [hclient, hreplies]
  | done => exact .inr (.inl rfl)

/-- Until both programs have ended some step can be taken, with the timeout only when the
round is over. -/
theorem Inv.exists_step (h : Inv p s)
    (hrunning : s.client ≠ .done ∨ s.server.phase ≠ .done) :
    ∃ e, Quiet p s e ∧ (Udperf.step p s e).isSome := by
  rcases h.client_cases with hclient | hclient
  · exact ⟨.client, by rintro ⟨⟩, hclient⟩
  by_cases hselect : s.server.phase = .select
  · by_cases hsocket : s.socket = []
    · by_cases hflight : s.inFlight = []
      · have hlt : ¬ p.maxRounds ≤ s.server.i := by
          rw [← h.ended, hselect]
          rintro ⟨⟩
        rcases hclient with hdone | ⟨hwaiting, -⟩
        · -- the client has all replies, so the server has ended
          have hanswered := h.answered
          have hreplied := h.replied
          rw [hdone] at hanswered
          rw [List.length_append] at hreplied
          simp only [Client.round] at hanswered
          omega
        · refine ⟨.timeout, fun _ => ⟨?_, ?_, ?_⟩, ?_⟩
          · simp [hwaiting, Client.sent]
          · simp [hflight]
          · simp [hsocket]
          · simp [Udperf.step, Udperf.timeoutStep, hselect, hsocket]
      · obtain ⟨datagram, rest, hcons⟩ := List.exists_cons_of_ne_nil hflight
        refine ⟨.deliver 0, by rintro ⟨⟩, ?_⟩
        simp [Udperf.step, hcons]
    · refine ⟨.server, by rintro ⟨⟩, ?_⟩
      simp [Udperf.step, Udperf.serverStep, hselect, hsocket]
  · have hdone : s.server.phase ≠ .done := by
      intro hdone
      rcases hclient with hclient | ⟨-, hlt⟩
      · exact hrunning.elim (fun hne => hne hclient) fun hne => hne hdone
      · exact Nat.not_le.mpr hlt (h.ended.mp hdone)
    exact ⟨.server, by rintro ⟨⟩, serverStep_isSome hselect hdone⟩

end Steps

/-! ## Any interleaving -/

/-- The count that the client receives in a round is the number of datagrams of that round
that reached the server, is at most `MAX_PKTS`, and counts no datagram of another round,
whatever is lost, delayed or reordered. -/
theorem udperf_counts {p : Params} (hclient : 1 ≤ p.clientPacketSize)
    (hserver : 1 ≤ p.serverPacketSize) {events : List Event} {s : System}
    (hrun : Run (step p) (initial p) events s)
    (hquiet : EveryStep (step p) (fun _ s e => Quiet p s e) (initial p) events) :
    (∀ i n, s.pkts[i]? = some n →
      n = s.reached.count i ∧ n ≤ p.maxPkts ∧ n = (s.counted.map (·.1)).count i) ∧
    ∀ c ∈ s.counted, c.1 = c.2 := by
  have h : Inv p s := by
    refine Run.invariant_of_everyStep (I := fun _ s => Inv p s) (inv_initial p) ?_ hquiet hrun
    intro _ mid e mid' _ hmid hq hstep
    exact hmid.step hclient hserver hq hstep
  refine ⟨fun i n hi => ?_, h.own⟩
  have hlt : i < s.pkts.length := (List.getElem?_eq_some_iff.mp hi).1
  have hresult : n = s.reached.count i :=
    h.results i n ((List.getElem?_append_left hlt).trans hi)
  have hpast : i < s.server.i := by
    rw [← h.replied, List.length_append]
    omega
  have hreached := h.reached i
  have hsent := h.sent i
  have hle := Client.sent_le (r := i) h.inRange
  rw [(h.closed i hpast).2.2] at hreached
  rw [h.counted_eq]
  exact ⟨hresult, by omega, by omega⟩

/-- Two rounds of two datagrams, of which one is lost in the first round and those of the
second come in the other order. -/
theorem udperf_counts_two :
    ∃ s, Run (step ⟨2, 2, 8, 8⟩) (initial ⟨2, 2, 8, 8⟩)
      [.client, .client, .client, .lose 0, .server, .deliver 0, .server, .server, .server,
        .server, .timeout, .server, .client, .client, .client, .client, .deliver 1, .deliver 0,
        .server, .server, .server, .server, .server, .server, .server, .client] s ∧
      s.pkts = [1, 2] ∧ s.client = .done ∧
      (∀ i n, s.pkts[i]? = some n →
        n = s.reached.count i ∧ n ≤ 2 ∧ n = (s.counted.map (·.1)).count i) ∧
      ∀ c ∈ s.counted, c.1 = c.2 :=
  ⟨_, run_get (by decide), rfl, rfl,
    udperf_counts (by decide) (by decide) (run_get (by decide)) (by decide)⟩

end RtpBenchmarks.Udperf
