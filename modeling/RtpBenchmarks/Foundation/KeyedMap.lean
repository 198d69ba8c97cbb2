import Mathlib.Data.List.AList

set_option autoImplicit false

/-!
# Foundation: keyed maps of pending requests

A program that keeps one entry of a map for each request that has no answer yet, under
a key that it computes from the request: `Tracks` relates the map to the requests.  An
entry is added for a request whose key is not in use, and erased when the request is
answered; a lookup then finds the entry of the request itself, and the keys of the
pending requests differ.
-/

namespace RtpBenchmarks.Foundation

open scoped List

variable {κ α : Type} {β : κ → Type}

/-- The entries of the map are those of the pending requests. -/
def Tracks (entry : α → Sigma β) (m : AList β) (pending : List α) : Prop :=
  m.entries ~ pending.map entry

section Tracks

variable {entry : α → Sigma β} {m : AList β} {pending pending' : List α} {a : α}

theorem tracks_empty (entry : α → Sigma β) : Tracks entry ∅ [] :=
  .refl _

/-- The order of the requests does not matter. -/
theorem Tracks.perm (h : Tracks entry m pending) (hperm : pending ~ pending') :
    Tracks entry m pending' :=
  h.trans (hperm.map entry)

/-- The keys of the pending requests differ. -/
theorem Tracks.keys_nodup (h : Tracks entry m pending) :
    (pending.map fun a => (entry a).1).Nodup := by
  have hkeys : m.keys ~ pending.map fun a => (entry a).1 := by
    have hmap := h.map Sigma.fst
    rwa [List.map_map] at hmap
  exact hkeys.nodup_iff.mp m.keys_nodup

variable [DecidableEq κ]

/-- A lookup finds an entry exactly if it is that of a pending request. -/
theorem Tracks.lookup_eq_some_iff (h : Tracks entry m pending) {k : κ} {v : β k} :
    m.lookup k = some v ↔ ∃ a ∈ pending, entry a = ⟨k, v⟩ := by
  rw [← Option.mem_def, AList.mem_lookup_iff, h.mem_iff, List.mem_map]

theorem Tracks.lookup_of_mem (h : Tracks entry m pending) (ha : a ∈ pending) :
    m.lookup (entry a).1 = some (entry a).2 :=
  h.lookup_eq_some_iff.mpr ⟨a, ha, rfl⟩

/-- A request whose key is not in use. -/
theorem Tracks.insert (h : Tracks entry m pending) (hnew : (entry a).1 ∉ m) :
    Tracks entry (m.insert (entry a).1 (entry a).2) (a :: pending) := by
  rw [Tracks, AList.entries_insert_of_notMem hnew]
  exact h.cons _

/-- A request that is answered. -/
theorem Tracks.erase (h : Tracks entry m (a :: pending)) :
    Tracks entry (m.erase (entry a).1) pending := by
  have hkerase := List.Perm.kerase (a := (entry a).1) m.nodupKeys h
  rwa [List.map_cons, List.kerase_cons_eq rfl] at hkerase

end Tracks

end RtpBenchmarks.Foundation
