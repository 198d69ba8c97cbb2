import Mathlib.Data.List.AList
import Mathlib.Data.List.Induction

set_option autoImplicit false

/-!
# Foundation: values that are put together under a key

A map holds one value for each key.  A new value is put in front of the one that is there or
behind it, so that the values in front come out in reverse order and those behind in order,
with the other kind in between wherever it arrives.
-/

namespace RtpBenchmarks.Foundation

/-- A value for a key, to be put in front or behind. -/
structure Piece (κ τ : Type) where
  key : κ
  front : Bool
  value : τ

variable {κ τ υ α : Type} [DecidableEq κ]

/-- The value under a key after `p` has been put. -/
def putAt (glue : τ → τ → τ) (old : Option τ) (p : Piece κ τ) : τ :=
  match old with
  | none => p.value
  | some old => if p.front then glue p.value old else glue old p.value

/-- Puts a value under its key. -/
def put (glue : τ → τ → τ) (m : AList fun _ : κ => τ) (p : Piece κ τ) : AList fun _ : κ => τ :=
  m.insert p.key (putAt glue (m.lookup p.key) p)

/-- Puts values under their keys, one after the other. -/
def collect (glue : τ → τ → τ) (ps : List (Piece κ τ)) : AList fun _ : κ => τ :=
  ps.foldl (put glue) ∅

theorem lookup_put (glue : τ → τ → τ) (m : AList fun _ : κ => τ) (p : Piece κ τ) (k : κ) :
    (put glue m p).lookup k =
      if p.key = k then some (putAt glue (m.lookup k) p) else m.lookup k := by
  rw [put]
  by_cases hk : p.key = k
  · rw [if_pos hk, ← hk, AList.lookup_insert]
  · rw [if_neg hk, AList.lookup_insert_ne (Ne.symm hk)]

theorem collect_append_singleton (glue : τ → τ → τ) (ps : List (Piece κ τ)) (p : Piece κ τ) :
    collect glue (ps ++ [p]) = put glue (collect glue ps) p := by
  rw [collect, List.foldl_append]
  rfl

/-- The values of one side under a key, in the order in which they arrive. -/
def side (front : Bool) (k : κ) (ps : List (Piece κ τ)) : List τ :=
  (ps.filter fun p => decide (p.key = k) && p.front == front).map Piece.value

theorem side_append (front : Bool) (k : κ) (ps qs : List (Piece κ τ)) :
    side front k (ps ++ qs) = side front k ps ++ side front k qs := by
  rw [side, List.filter_append, List.map_append]
  rfl

/-- A list without repetitions in which everything is the same. -/
theorem eq_singleton {l : List α} {a : α} (hnodup : l.Nodup) (hmem : a ∈ l)
    (hall : ∀ b ∈ l, b = a) : l = [a] := by
  have hperm : l.Perm [a] :=
    (List.perm_ext_iff_of_nodup hnodup (List.nodup_singleton a)).mpr fun b => by
      rw [List.mem_singleton]
      exact ⟨hall b, fun h => h ▸ hmem⟩
  exact List.perm_singleton.mp hperm

/-- A value that is alone on its side. -/
theorem side_map_eq_singleton {is : List α} {i : α} (piece : α → Piece κ τ) (hnodup : is.Nodup)
    (hmem : i ∈ is)
    (hinj : ∀ j ∈ is, (piece j).key = (piece i).key → (piece j).front = (piece i).front → j = i) :
    side (piece i).front (piece i).key (is.map piece) = [(piece i).value] := by
  have hfilter : is.filter (fun j => decide ((piece j).key = (piece i).key) &&
      (piece j).front == (piece i).front) = [i] := by
    refine eq_singleton (hnodup.filter _) (List.mem_filter.mpr ⟨hmem, by simp⟩) fun j hj => ?_
    simp only [List.mem_filter, Bool.and_eq_true, decide_eq_true_eq, beq_iff_eq] at hj
    exact hinj j hj.1 hj.2.1 hj.2.2
  rw [side, List.filter_map]
  simp only [Function.comp_def, hfilter, List.map_cons, List.map_nil]

/-- Everything that is put under a key, from front to back. -/
def gathered (k : κ) (ps : List (Piece κ (List α))) : List α :=
  (side true k ps).reverse.flatten ++ (side false k ps).flatten

theorem gathered_of_sides {k : κ} {ps : List (Piece κ (List α))} {as bs : List α}
    (hfront : side true k ps = [as]) (hback : side false k ps = [bs]) :
    gathered k ps = as ++ bs := by
  simp [gathered, hfront, hback]

theorem gathered_append_singleton (k : κ) (ps : List (Piece κ (List α))) (p : Piece κ (List α)) :
    gathered k (ps ++ [p]) =
      if p.key = k then
        if p.front then p.value ++ gathered k ps else gathered k ps ++ p.value
      else gathered k ps := by
  unfold gathered
  rw [side_append, side_append]
  by_cases hk : p.key = k
  · cases hfront : p.front <;> simp [side, hk, hfront]
  · simp [side, hk]

theorem gathered_map (g : α → υ) (k : κ) (ps : List (Piece κ (List α))) :
    gathered k (ps.map fun p => { p with value := p.value.map g }) = (gathered k ps).map g := by
  have hside (front : Bool) :
      side front k (ps.map fun p => { p with value := p.value.map g }) =
        (side front k ps).map (List.map g) := by
    rw [side, side, List.filter_map, List.map_map, List.map_map]
    rfl
  rw [gathered, gathered, hside, hside, List.map_append, List.map_flatten, List.map_flatten,
    List.map_reverse]

theorem mem_keys_collect {glue : τ → τ → τ} {ps : List (Piece κ τ)} {k : κ} :
    k ∈ (collect glue ps).keys ↔ k ∈ ps.map Piece.key := by
  rw [← AList.mem_keys, ← AList.lookup_isSome]
  induction ps using List.reverseRecOn with
  | nil => simp [collect]
  | append_singleton ps p ih =>
    rw [collect_append_singleton, lookup_put, List.map_append, List.mem_append, ← ih]
    by_cases hk : p.key = k
    · simp [hk]
    · simp [hk, Ne.symm hk]

/-- Lists are put together in the order in which they lie. -/
theorem lookup_collect (ps : List (Piece κ (List α))) (k : κ) :
    (collect (· ++ ·) ps).lookup k =
      if k ∈ ps.map Piece.key then some (gathered k ps) else none := by
  induction ps using List.reverseRecOn with
  | nil => simp [collect]
  | append_singleton ps p ih =>
    rw [collect_append_singleton, lookup_put, ih, gathered_append_singleton]
    by_cases hk : p.key = k
    · by_cases hmem : k ∈ ps.map Piece.key
      · simp [hk, hmem, putAt]
      · have hnone : gathered k ps = [] := by
          have hside (front : Bool) : side front k ps = [] := by
            rw [side, List.map_eq_nil_iff, List.filter_eq_nil_iff]
            intro q hq
            have hne : q.key ≠ k := fun h => hmem (h ▸ List.mem_map_of_mem hq)
            simp [hne]
          rw [gathered, hside, hside]
          rfl
        simp [hk, hmem, putAt, hnone]
    · simp [hk, Ne.symm hk]

/-- A function of the values that turns one way to put values together into another. -/
theorem lookup_collect_map {glue : τ → τ → τ} {glue' : υ → υ → υ} {f : τ → υ} {P : τ → Prop}
    (hglue : ∀ {a b}, P a → P b → P (glue a b) ∧ f (glue a b) = glue' (f a) (f b))
    {ps : List (Piece κ τ)} (hP : ∀ p ∈ ps, P p.value) (k : κ) :
    (collect glue' (ps.map fun p => { p with value := f p.value })).lookup k =
        ((collect glue ps).lookup k).map f ∧
      ∀ v ∈ (collect glue ps).lookup k, P v := by
  induction ps using List.reverseRecOn with
  | nil => simp [collect]
  | append_singleton ps p ih =>
    obtain ⟨hps, hp⟩ := List.forall_mem_append.mp hP
    obtain ⟨hlookup, hall⟩ := ih hps
    have hvalue := hp p (List.mem_singleton_self p)
    rw [List.map_append, List.map_singleton, collect_append_singleton, collect_append_singleton,
      lookup_put, lookup_put, hlookup]
    by_cases hk : p.key = k
    · rw [if_pos hk, if_pos hk]
      cases hold : (collect glue ps).lookup k with
      | none => exact ⟨rfl, by rintro v ⟨⟩; exact hvalue⟩
      | some old =>
        have hP' : P old := hall old hold
        cases hfront : p.front with
        | true =>
          obtain ⟨hsome, hf⟩ := hglue hvalue hP'
          exact ⟨by simp [putAt, hfront, hf], by rintro v ⟨⟩; simpa [putAt, hfront] using hsome⟩
        | false =>
          obtain ⟨hsome, hf⟩ := hglue hP' hvalue
          exact ⟨by simp [putAt, hfront, hf], by rintro v ⟨⟩; simpa [putAt, hfront] using hsome⟩
    · rw [if_neg hk, if_neg hk]
      exact ⟨rfl, hall⟩

end RtpBenchmarks.Foundation
