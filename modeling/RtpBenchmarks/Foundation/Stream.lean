import Mathlib.Data.List.Basic

set_option autoImplicit false

/-!
# Foundation: streams of copies of one message

A stream has no boundaries: what has been written to it and not yet read is one list,
of which a reader takes as much as it is handed.  When all that is written are copies
of one message, a reader that takes exactly the length of the message takes the
message, and leaves the other copies.
-/

namespace RtpBenchmarks.Foundation

variable {α : Type}

/-- What is in a stream to which a message has been written `k` times. -/
def copies (m : List α) (k : Nat) : List α :=
  (List.replicate k m).flatten

section Copies

variable {m : List α} {k : Nat}

/-- The first copy is the first to be read. -/
theorem copies_succ : copies m (k + 1) = m ++ copies m k := rfl

/-- The last copy is the last to be written. -/
theorem copies_append : copies m k ++ m = copies m (k + 1) := by
  simp [copies, List.replicate_succ']

@[simp] theorem length_copies : (copies m k).length = k * m.length := by
  simp [copies]

theorem take_copies : (copies m (k + 1)).take m.length = m := by
  rw [copies_succ, List.take_left]

theorem drop_copies : (copies m (k + 1)).drop m.length = copies m k := by
  rw [copies_succ, List.drop_left]

end Copies

/-- What a reader is handed has the length of the message only if that is how much it
takes. -/
theorem eq_length_of_take_eq {stream m : List α} {n : Nat} (hn : n ≤ stream.length)
    (h : stream.take n = m) : n = m.length := by
  rw [← h, List.length_take_of_le hn]

end RtpBenchmarks.Foundation
