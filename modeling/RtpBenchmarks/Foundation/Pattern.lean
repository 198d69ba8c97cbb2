import Mathlib.Data.List.TakeWhile

set_option autoImplicit false

/-!
# Foundation: regular expressions with groups

A backtracking matcher tries the ways in which a pattern matches in a fixed order:
alternatives from left to right, repetitions from the longest down.  `results` lists all
ways from one position in that order, each with the texts of the groups and the text that
is left; the first is the one that counts.  `search` takes the leftmost position that has
one.

Patterns are built so that a text can be followed piece by piece: the first result of a
sequence is that of its parts when the second part matches where the first one stops, and
positions at which nothing matches are skipped.
-/

namespace RtpBenchmarks.Foundation

/-- Characters of a class, once or as often as possible, sequences, alternatives and
groups. -/
inductive Pattern where
  | empty
  | char (p : Char → Bool)
  | star (p : Char → Bool)
  | seq (a b : Pattern)
  | alt (a b : Pattern)
  | group (a : Pattern)

namespace Pattern

/-- What is left after each number of repetitions, the largest number first. -/
def starRests (p : Char → Bool) : List Char → List (List Char)
  | [] => [[]]
  | c :: text => if p c then starRests p text ++ [c :: text] else [c :: text]

/-- The ways to match at the beginning of a text. -/
def results : Pattern → List Char → List (List (List Char) × List Char)
  | empty, text => [([], text)]
  | char _, [] => []
  | char p, c :: text => if p c then [([], text)] else []
  | star p, text => (starRests p text).map fun rest => ([], rest)
  | seq a b, text =>
    (a.results text).flatMap fun m => (b.results m.2).map fun m' => (m.1 ++ m'.1, m'.2)
  | alt a b, text => a.results text ++ b.results text
  | group a, text =>
    (a.results text).map fun m => (text.take (text.length - m.2.length) :: m.1, m.2)

/-- The way that counts. -/
def first (a : Pattern) (text : List Char) : Option (List (List Char) × List Char) :=
  (a.results text).head?

/-- The groups of the leftmost match. -/
def search (a : Pattern) : List Char → Option (List (List Char))
  | [] => (a.first []).map Prod.fst
  | c :: text =>
    match a.first (c :: text) with
    | some m => some m.1
    | none => search a text

/-- At least one character of a class. -/
def plus (p : Char → Bool) : Pattern :=
  seq (char p) (star p)

/-- A word; `same` says which characters are taken for each other. -/
def wordBy (same : Char → Char → Bool) : List Char → Pattern
  | [] => empty
  | c :: cs => seq (char (same c)) (wordBy same cs)

/-- A word. -/
def word (s : List Char) : Pattern :=
  wordBy (fun c d => c == d) s

/-- A word in any mixture of cases (`/i`). -/
def wordAnyCase (s : List Char) : Pattern :=
  wordBy (fun c d => c.toLower == d.toLower) s

/-- `.`. -/
def notNewline (c : Char) : Bool :=
  c != '\n'

theorem notNewline_of_mem {text : List Char} (h : '\n' ∉ text) :
    ∀ c ∈ text, notNewline c = true :=
  fun _ hc => bne_iff_ne.mpr fun hcn => h (hcn ▸ hc)

/-- `\d+`. -/
def digits : Pattern :=
  plus Char.isDigit

/-- The pattern matches somewhere in the text. -/
def occursIn (a : Pattern) (text : List Char) : Bool :=
  (a.search text).isSome

/-! ## The ways, constructor by constructor -/

section Equations

variable (a b : Pattern) (p : Char → Bool) (text : List Char)

theorem results_char_cons (c : Char) :
    (char p).results (c :: text) = if p c then [([], text)] else [] := rfl

theorem results_star :
    (star p).results text = (starRests p text).map fun rest => ([], rest) := rfl

theorem results_seq : (seq a b).results text = (a.results text).flatMap fun m =>
    (b.results m.2).map fun m' => (m.1 ++ m'.1, m'.2) := rfl

theorem results_alt : (alt a b).results text = a.results text ++ b.results text := rfl

theorem results_group : (group a).results text = (a.results text).map fun m =>
    (text.take (text.length - m.2.length) :: m.1, m.2) := rfl

theorem starRests_cons (c : Char) : starRests p (c :: text) =
    if p c then starRests p text ++ [c :: text] else [c :: text] := rfl

theorem search_nil : a.search [] = (a.first []).map Prod.fst := rfl

theorem search_cons (c : Char) : a.search (c :: text) =
    match a.first (c :: text) with
    | some m => some m.1
    | none => a.search text := rfl

end Equations

/-! ## The first way -/

section First

variable {a b : Pattern} {p : Char → Bool} {g g' : List (List Char)}
  {text rest rest' : List Char}

@[simp] theorem first_empty : empty.first text = some ([], text) := rfl

theorem first_char {c : Char} (h : p c = true) :
    (char p).first (c :: text) = some ([], text) := by
  rw [first, results_char_cons, if_pos h, List.head?_cons]

/-- The second part matches where the first one stops. -/
theorem first_seq (ha : a.first text = some (g, rest)) (hb : b.first rest = some (g', rest')) :
    (seq a b).first text = some (g ++ g', rest') := by
  unfold first at ha hb ⊢
  obtain ⟨ms, hms⟩ := List.head?_eq_some_iff.mp ha
  obtain ⟨ms', hms'⟩ := List.head?_eq_some_iff.mp hb
  rw [results_seq, hms, List.flatMap_cons, hms']
  rfl

theorem first_alt_left {m : List (List Char) × List Char} (h : a.first text = some m) :
    (alt a b).first text = some m := by
  rw [first, results_alt, List.head?_append, ← first, h]
  rfl

theorem first_alt_right {m : List (List Char) × List Char} (ha : a.results text = [])
    (h : b.first text = some m) : (alt a b).first text = some m := by
  rw [first, results_alt, ha, List.nil_append, ← first, h]

/-- A group records what it has matched. -/
theorem first_group (h : a.first (text ++ rest) = some (g, rest)) :
    (group a).first (text ++ rest) = some (text :: g, rest) := by
  unfold first at h ⊢
  obtain ⟨ms, hms⟩ := List.head?_eq_some_iff.mp h
  rw [results_group, hms, List.map_cons, List.head?_cons]
  simp

/-- A run of the class is taken whole. -/
theorem first_star (htext : ∀ c ∈ text, p c = true) (hrest : ∀ c ∈ rest.head?, p c = false) :
    (star p).first (text ++ rest) = some ([], rest) := by
  have hhead : (starRests p (text ++ rest)).head? = some rest := by
    induction text with
    | nil =>
      cases rest with
      | nil => rfl
      | cons c rest => simp [starRests_cons, hrest c rfl]
    | cons c text ih =>
      obtain ⟨hc, htext⟩ := List.forall_mem_cons.mp htext
      rw [List.cons_append, starRests_cons, if_pos hc, List.head?_append, ih htext]
      rfl
  rw [first, results_star, List.head?_map, hhead]
  rfl

theorem first_plus (hne : text ≠ []) (htext : ∀ c ∈ text, p c = true)
    (hrest : ∀ c ∈ rest.head?, p c = false) :
    (plus p).first (text ++ rest) = some ([], rest) := by
  cases text with
  | nil => exact absurd rfl hne
  | cons c text =>
    obtain ⟨hc, htext⟩ := List.forall_mem_cons.mp htext
    exact first_seq (first_char hc) (first_star htext hrest)

theorem first_wordBy {same : Char → Char → Bool} (hsame : ∀ c, same c c = true)
    (s : List Char) : (wordBy same s).first (s ++ rest) = some ([], rest) := by
  induction s with
  | nil => rfl
  | cons c s ih => exact first_seq (first_char (hsame c)) ih

theorem first_word (s : List Char) : (word s).first (s ++ rest) = some ([], rest) :=
  first_wordBy (fun c => beq_self_eq_true c) s

theorem first_wordAnyCase (s : List Char) :
    (wordAnyCase s).first (s ++ rest) = some ([], rest) :=
  first_wordBy (fun c => beq_self_eq_true c.toLower) s

end First

/-! ## What can match -/

section Results

variable {a b : Pattern} {p : Char → Bool} {c : Char} {s text rest : List Char}
  {m : List (List Char) × List Char}

theorem mem_results_seq : m ∈ (seq a b).results text ↔
    ∃ m₁ ∈ a.results text, ∃ m₂ ∈ b.results m₁.2, (m₁.1 ++ m₂.1, m₂.2) = m := by
  simp only [results_seq, List.mem_flatMap, List.mem_map]

theorem mem_results_group (h : m ∈ (group a).results text) :
    ∃ m' ∈ a.results text, (text.take (text.length - m'.2.length) :: m'.1, m'.2) = m := by
  simpa only [results_group, List.mem_map] using h

theorem mem_results_char (h : m ∈ (char p).results text) :
    ∃ c, p c = true ∧ text = c :: m.2 ∧ m.1 = [] := by
  cases text with
  | nil => cases h
  | cons c text =>
    rw [results_char_cons] at h
    split_ifs at h with hc
    · obtain rfl := List.mem_singleton.mp h
      exact ⟨c, hc, rfl, rfl⟩
    · cases h

theorem mem_starRests (h : rest ∈ starRests p text) :
    ∃ run, (∀ c ∈ run, p c = true) ∧ text = run ++ rest := by
  induction text with
  | nil =>
    obtain rfl := List.mem_singleton.mp h
    exact ⟨[], by simp, rfl⟩
  | cons c text ih =>
    rw [starRests_cons] at h
    split_ifs at h with hc
    · rcases List.mem_append.mp h with h | h
      · obtain ⟨run, hrun, rfl⟩ := ih h
        exact ⟨c :: run, List.forall_mem_cons.mpr ⟨hc, hrun⟩, rfl⟩
      · obtain rfl := List.mem_singleton.mp h
        exact ⟨[], by simp, rfl⟩
    · obtain rfl := List.mem_singleton.mp h
      exact ⟨[], by simp, rfl⟩

theorem mem_results_plus (h : m ∈ (plus p).results text) :
    m.1 = [] ∧ ∃ run, run ≠ [] ∧ (∀ c ∈ run, p c = true) ∧ text = run ++ m.2 := by
  obtain ⟨m₁, h₁, m₂, h₂, rfl⟩ := mem_results_seq.mp h
  obtain ⟨c, hc, rfl, hm₁⟩ := mem_results_char h₁
  obtain ⟨rest, hrest, rfl⟩ := List.mem_map.mp h₂
  obtain ⟨run, hrun, hm⟩ := mem_starRests hrest
  refine ⟨by simp [hm₁], c :: run, by simp, List.forall_mem_cons.mpr ⟨hc, hrun⟩, ?_⟩
  rw [hm, List.cons_append]

/-- What a group of one or more characters of a class records. -/
theorem mem_results_group_plus (h : m ∈ (group (plus p)).results text) :
    ∃ run, m.1 = [run] ∧ run ≠ [] ∧ (∀ c ∈ run, p c = true) ∧ text = run ++ m.2 := by
  obtain ⟨m', hm', rfl⟩ := mem_results_group h
  obtain ⟨hgroups, run, hne, hrun, htext⟩ := mem_results_plus hm'
  refine ⟨run, ?_, hne, hrun, htext⟩
  simp [hgroups, htext]

theorem mem_results_word (h : m ∈ (word s).results text) : m.1 = [] ∧ text = s ++ m.2 := by
  induction s generalizing text m with
  | nil =>
    obtain rfl := List.mem_singleton.mp h
    exact ⟨rfl, rfl⟩
  | cons c s ih =>
    obtain ⟨m₁, h₁, m₂, h₂, rfl⟩ := mem_results_seq.mp h
    obtain ⟨d, hd, rfl, hm₁⟩ := mem_results_char h₁
    obtain ⟨hm₂, hrest⟩ := ih h₂
    obtain rfl := beq_iff_eq.mp hd
    exact ⟨by simp [hm₁, hm₂], by rw [hrest, List.cons_append]⟩

/-- What is left is at the end of the text. -/
theorem suffix_of_mem_results (h : m ∈ a.results text) : m.2 <:+ text := by
  induction a generalizing text m with
  | empty =>
    obtain rfl := List.mem_singleton.mp h
    exact List.suffix_refl text
  | char p =>
    obtain ⟨c, -, rfl, -⟩ := mem_results_char h
    exact List.suffix_cons c m.2
  | star p =>
    obtain ⟨rest, hrest, rfl⟩ := List.mem_map.mp h
    obtain ⟨run, -, rfl⟩ := mem_starRests hrest
    exact List.suffix_append run rest
  | seq a b iha ihb =>
    obtain ⟨m₁, hm₁, m₂, hm₂, rfl⟩ := mem_results_seq.mp h
    exact (ihb hm₂).trans (iha hm₁)
  | alt a b iha ihb =>
    rcases List.mem_append.mp h with h | h
    · exact iha h
    · exact ihb h
  | group a ih =>
    obtain ⟨m', hm', rfl⟩ := mem_results_group h
    have hsuffix := ih hm'
    exact hsuffix

theorem results_seq_eq_nil (h : a.results text = []) : (seq a b).results text = [] := by
  rw [results_seq, h, List.flatMap_nil]

theorem results_char_eq_nil (h : ∀ c ∈ text.head?, p c = false) :
    (char p).results text = [] := by
  cases text with
  | nil => rfl
  | cons c text => simp [results_char_cons, h c rfl]

/-- After a group of characters of a class only what is behind the whole run, or begins with
another character of the class, is tried. -/
theorem results_group_plus_seq_eq_nil (h : b.results (text.dropWhile p) = [])
    (hclass : ∀ c rest, p c = true → b.results (c :: rest) = []) :
    (seq (group (plus p)) b).results text = [] := by
  refine List.eq_nil_iff_forall_not_mem.mpr fun m hm => ?_
  obtain ⟨m₁, h₁, m₂, h₂, -⟩ := mem_results_seq.mp hm
  obtain ⟨run, -, -, hrun, rfl⟩ := mem_results_group_plus h₁
  rw [List.dropWhile_append_of_pos hrun] at h
  cases hrest : m₁.2 with
  | nil =>
    rw [hrest] at h h₂
    rw [List.dropWhile_nil] at h
    rw [h] at h₂
    cases h₂
  | cons c rest =>
    rw [hrest] at h h₂
    cases hc : p c with
    | true =>
      rw [hclass c rest hc] at h₂
      cases h₂
    | false =>
      rw [List.dropWhile_cons_of_neg (by simp [hc])] at h
      rw [h] at h₂
      cases h₂

/-- A run of characters of a class in front of a character with which the word that follows
does not begin. -/
theorem results_group_plus_wordBy_eq_nil {same : Char → Char → Bool} {run : List Char} {d : Char}
    (hrun : ∀ x ∈ run, p x = true) (hd : p d = false) (hsame : same c d = false)
    (hclass : ∀ x, p x = true → same c x = false) (rest : List Char) :
    (seq (group (plus p)) (seq (wordBy same (c :: s)) b)).results (run ++ d :: rest) = [] := by
  have hword (x : Char) (tail : List Char) (hx : same c x = false) :
      (seq (wordBy same (c :: s)) b).results (x :: tail) = [] := by
    refine results_seq_eq_nil (results_seq_eq_nil (results_char_eq_nil ?_))
    rintro y ⟨⟩
    exact hx
  refine results_group_plus_seq_eq_nil ?_ fun x tail hx => hword x tail (hclass x hx)
  rw [List.dropWhile_append_of_pos hrun, List.dropWhile_cons_of_neg (by simp [hd])]
  exact hword d rest hsame

/-- A word that does not match in any mixture of cases does not match. -/
theorem results_word_eq_nil (h : (wordAnyCase s).results text = []) :
    (word s).results text = [] := by
  refine List.eq_nil_iff_forall_not_mem.mpr fun m hm => ?_
  obtain ⟨-, rfl⟩ := mem_results_word hm
  have hfirst := @first_wordAnyCase m.2 s
  rw [first, h] at hfirst
  cases hfirst

end Results

/-! ## The leftmost match -/

/-- Nothing matches at a position of `text` when `rest` follows it. -/
inductive Skips (a : Pattern) : List Char → List Char → Prop where
  | nil (rest : List Char) : Skips a [] rest
  | cons {c : Char} {text rest : List Char} (head : a.results (c :: (text ++ rest)) = [])
      (tail : Skips a text rest) : Skips a (c :: text) rest

section Search

variable {a b : Pattern} {p : Char → Bool} {c : Char} {g : List (List Char)}
  {s text text' rest : List Char} {m : List (List Char) × List Char}

@[simp] theorem skips_nil : a.Skips [] rest :=
  .nil rest

@[simp] theorem skips_cons :
    a.Skips (c :: text) rest ↔ a.results (c :: (text ++ rest)) = [] ∧ a.Skips text rest :=
  ⟨fun h => by cases h with | cons head tail => exact ⟨head, tail⟩, fun h => .cons h.1 h.2⟩

theorem skips_append :
    a.Skips (text ++ text') rest ↔ a.Skips text (text' ++ rest) ∧ a.Skips text' rest := by
  induction text with
  | nil => simp
  | cons c text ih =>
    simp only [List.cons_append, skips_cons, ih, List.append_assoc, and_assoc]

theorem skips_of_forall (h : ∀ c ∈ text, ∀ rest, a.results (c :: rest) = []) :
    a.Skips text rest := by
  induction text with
  | nil => exact skips_nil
  | cons c text ih =>
    obtain ⟨hc, htext⟩ := List.forall_mem_cons.mp h
    exact .cons (hc _) (ih htext)

theorem skips_flatten {pieces : List (List Char)}
    (h : ∀ piece ∈ pieces, ∀ rest, a.Skips piece rest) (rest : List Char) :
    a.Skips pieces.flatten rest := by
  induction pieces with
  | nil => exact skips_nil
  | cons piece pieces ih =>
    obtain ⟨hpiece, hpieces⟩ := List.forall_mem_cons.mp h
    exact skips_append.mpr ⟨hpiece _, ih hpieces⟩

theorem skips_word_of_anyCase (h : (wordAnyCase s).Skips text rest) :
    (word s).Skips text rest := by
  induction text with
  | nil => exact skips_nil
  | cons d text ih =>
    obtain ⟨hd, htext⟩ := skips_cons.mp h
    exact .cons (results_word_eq_nil hd) (ih htext)

theorem skips_seq (h : a.Skips text rest) : (seq a b).Skips text rest := by
  induction text with
  | nil => exact skips_nil
  | cons d text ih =>
    obtain ⟨hd, htext⟩ := skips_cons.mp h
    exact .cons (results_seq_eq_nil hd) (ih htext)

theorem skips_group (h : a.Skips text rest) : (group a).Skips text rest := by
  induction text with
  | nil => exact skips_nil
  | cons d text ih =>
    obtain ⟨hd, htext⟩ := skips_cons.mp h
    exact .cons (by rw [results_group, hd, List.map_nil]) (ih htext)

theorem skips_alt (ha : a.Skips text rest) (hb : b.Skips text rest) :
    (alt a b).Skips text rest := by
  induction text with
  | nil => exact skips_nil
  | cons d text ih =>
    obtain ⟨hda, hta⟩ := skips_cons.mp ha
    obtain ⟨hdb, htb⟩ := skips_cons.mp hb
    exact .cons (by rw [results_alt, hda, hdb, List.append_nil]) (ih hta htb)

/-- No position of the text has a first character of the word. -/
theorem skips_wordBy {same : Char → Char → Bool} (htext : ∀ d ∈ text, same c d = false) :
    (wordBy same (c :: s)).Skips text rest := by
  refine skips_of_forall fun d hd rest' => results_seq_eq_nil (results_char_eq_nil ?_)
  rintro e ⟨⟩
  exact htext d hd

theorem skips_word (htext : c ∉ text) : (word (c :: s)).Skips text rest :=
  skips_wordBy fun _ hd => beq_eq_false_iff_ne.mpr fun h => htext (h ▸ hd)

/-- Every run of a class ends within the text, in front of another character than `c`. -/
def runsEndOff (p : Char → Bool) (c : Char) : List Char → Bool
  | [] => true
  | d :: text =>
    (!p d || (text.dropWhile p).head?.any fun e => e != c) && runsEndOff p c text

/-- A text without a run of a class in front of the word. -/
theorem skips_group_plus_word (hc : p c = false) (h : runsEndOff p c text = true) :
    (seq (group (plus p)) (seq (word (c :: s)) b)).Skips text rest := by
  induction text with
  | nil => exact skips_nil
  | cons d text ih =>
    rw [runsEndOff, Bool.and_eq_true] at h
    obtain ⟨hrun, htext⟩ := h
    refine .cons ?_ (ih htext)
    cases hd : p d with
    | false =>
      have hchar : (char p).results (d :: (text ++ rest)) = [] :=
        results_char_eq_nil (by rintro e ⟨⟩; exact hd)
      refine results_seq_eq_nil ?_
      rw [results_group, plus, results_seq_eq_nil hchar, List.map_nil]
    | true =>
      rw [hd, Bool.not_true, Bool.false_or, Option.any_eq_true] at hrun
      obtain ⟨e, he, hne⟩ := hrun
      obtain ⟨tail, htail⟩ := List.head?_eq_some_iff.mp he
      have hnot := List.head?_dropWhile_not p text
      rw [he] at hnot
      obtain ⟨run, hclass, rfl⟩ : ∃ run, (∀ x ∈ run, p x = true) ∧ text = run ++ e :: tail :=
        ⟨text.takeWhile p, fun x hx => List.mem_takeWhile_imp hx, by
          rw [← htail, List.takeWhile_append_dropWhile]⟩
      rw [List.append_assoc, List.cons_append, ← List.cons_append]
      refine results_group_plus_wordBy_eq_nil (List.forall_mem_cons.mpr ⟨hd, hclass⟩)
        (by simpa using hnot) ?_ ?_ _
      · exact beq_eq_false_iff_ne.mpr fun hce => bne_iff_ne.mp hne hce.symm
      · intro x hx
        exact beq_eq_false_iff_ne.mpr fun hcx => by rw [← hcx, hc] at hx; cases hx

theorem search_of_first (h : a.first text = some (g, rest)) : a.search text = some g := by
  cases text with
  | nil => rw [search_nil, h]; rfl
  | cons c text => rw [search_cons, h]

theorem occursIn_word_append (s rest : List Char) : (word s).occursIn (s ++ rest) = true := by
  rw [occursIn, search_of_first (first_word s)]
  rfl

theorem search_skips (h : a.Skips text rest) : a.search (text ++ rest) = a.search rest := by
  induction text with
  | nil => rfl
  | cons c text ih =>
    obtain ⟨hc, htext⟩ := skips_cons.mp h
    rw [List.cons_append, search_cons, first, hc]
    exact ih htext

theorem occursIn_nil : a.occursIn [] = !(a.results []).isEmpty := by
  rw [occursIn, search_nil, first]
  cases a.results [] <;> rfl

theorem occursIn_cons (text : List Char) :
    a.occursIn (c :: text) = (!(a.results (c :: text)).isEmpty || a.occursIn text) := by
  rw [occursIn, search_cons, first]
  cases a.results (c :: text) <;> rfl

theorem occursIn_append (text : List Char) (h : a.occursIn rest = true) :
    a.occursIn (text ++ rest) = true := by
  induction text with
  | nil => exact h
  | cons c text ih => rw [List.cons_append, occursIn_cons, ih, Bool.or_true]

@[simp] theorem occursIn_alt (text : List Char) :
    (alt a b).occursIn text = (a.occursIn text || b.occursIn text) := by
  have hempty (text : List Char) : ((alt a b).results text).isEmpty =
      ((a.results text).isEmpty && (b.results text).isEmpty) := by
    rw [results_alt]
    cases a.results text <;> rfl
  induction text with
  | nil => simp [occursIn_nil, hempty]
  | cons c text ih =>
    simp only [occursIn_cons, ih, hempty, Bool.not_and]
    ac_rfl

theorem not_occursIn_of_skips (h : a.Skips text []) (hend : a.results [] = []) :
    a.occursIn text = false := by
  have hsearch := search_skips h
  rw [List.append_nil, search_nil, first, hend] at hsearch
  rw [occursIn, hsearch]
  rfl

/-- A match that is found is one at some position. -/
theorem exists_of_search (h : a.search text = some g) :
    ∃ before after rest, text = before ++ after ∧ (g, rest) ∈ a.results after := by
  induction text with
  | nil =>
    rw [search_nil, Option.map_eq_some_iff] at h
    obtain ⟨m, hm, rfl⟩ := h
    exact ⟨[], [], m.2, rfl, List.mem_of_head? hm⟩
  | cons c text ih =>
    rw [search_cons] at h
    cases hfirst : a.first (c :: text) with
    | some m =>
      rw [hfirst] at h
      obtain rfl := Option.some.inj h
      exact ⟨[], c :: text, m.2, rfl, List.mem_of_head? hfirst⟩
    | none =>
      rw [hfirst] at h
      obtain ⟨before, after, rest, rfl, hmem⟩ := ih h
      exact ⟨c :: before, after, rest, rfl, hmem⟩

/-- Every match of the pattern is in a text with `c`. -/
def Needs (a : Pattern) (c : Char) : Prop :=
  ∀ text, ∀ m ∈ a.results text, c ∈ text

theorem needs_word (hc : c ∈ s) : (word s).Needs c := by
  intro text m hm
  obtain ⟨-, rfl⟩ := mem_results_word hm
  exact List.mem_append_left _ hc

theorem needs_group (h : a.Needs c) : (group a).Needs c := by
  intro text m hm
  obtain ⟨m', hm', -⟩ := mem_results_group hm
  exact h text m' hm'

theorem needs_seq_left (h : a.Needs c) : (seq a b).Needs c := by
  intro text m hm
  obtain ⟨m₁, hm₁, -⟩ := mem_results_seq.mp hm
  exact h text m₁ hm₁

theorem needs_seq_right (h : b.Needs c) : (seq a b).Needs c := by
  intro text m hm
  obtain ⟨m₁, hm₁, m₂, hm₂, -⟩ := mem_results_seq.mp hm
  exact (suffix_of_mem_results hm₁).subset (h m₁.2 m₂ hm₂)

theorem search_eq_none_of_needs (ha : a.Needs c) (h : c ∉ text) : a.search text = none := by
  cases hsearch : a.search text with
  | none => rfl
  | some g =>
    obtain ⟨before, after, rest, rfl, hmem⟩ := exists_of_search hsearch
    exact absurd (List.mem_append_right before (ha after _ hmem)) h

/-- A word occurs in a text only with all its characters. -/
theorem not_occursIn_word (hc : c ∈ s) (htext : c ∉ text) : (word s).occursIn text = false := by
  rw [occursIn, search_eq_none_of_needs (needs_word hc) htext]
  rfl

/-- What the groups of a pattern hold satisfies `P`. -/
def Records (a : Pattern) (P : List Char → Prop) : Prop :=
  ∀ text, ∀ m ∈ a.results text, ∀ g ∈ m.1, P g

theorem records_seq {P : List Char → Prop} (ha : a.Records P) (hb : b.Records P) :
    (seq a b).Records P := by
  intro text m hm g hg
  obtain ⟨m₁, hm₁, m₂, hm₂, rfl⟩ := mem_results_seq.mp hm
  rcases List.mem_append.mp hg with hg | hg
  · exact ha text m₁ hm₁ g hg
  · exact hb m₁.2 m₂ hm₂ g hg

theorem records_word {P : List Char → Prop} (s : List Char) : (word s).Records P := by
  intro text m hm g hg
  rw [(mem_results_word hm).1] at hg
  cases hg

theorem records_group_plus (p : Char → Bool) :
    (group (plus p)).Records fun g => g ≠ [] ∧ ∀ c ∈ g, p c = true := by
  intro text m hm g hg
  obtain ⟨run, hgroups, hne, hrun, -⟩ := mem_results_group_plus hm
  rw [hgroups] at hg
  obtain rfl := List.mem_singleton.mp hg
  exact ⟨hne, hrun⟩

theorem forall_of_search {P : List Char → Prop} {groups : List (List Char)} (ha : a.Records P)
    (h : a.search text = some groups) : ∀ g ∈ groups, P g := by
  obtain ⟨before, after, rest, -, hmem⟩ := exists_of_search h
  exact ha after _ hmem

theorem results_star_seq (text : List Char) :
    (seq (star p) b).results text = (starRests p text).flatMap b.results := by
  rw [results_seq, results_star, List.flatMap_map]
  simp

/-- Nothing matches anywhere in a text that is skipped to its end. -/
theorem results_of_skips (hskips : b.Skips text []) (hend : b.results [] = [])
    (hrest : rest ∈ starRests p text) : b.results rest = [] := by
  obtain ⟨run, -, rfl⟩ := mem_starRests hrest
  cases rest with
  | nil => exact hend
  | cons d rest =>
    have h := (skips_cons.mp (skips_append.mp hskips).2).1
    rwa [List.append_nil] at h

/-- A greedy repetition goes to the last position at which the rest matches. -/
theorem first_star_seq (hclass : ∀ d ∈ text, p d = true)
    (hm : b.first (c :: rest) = some m) (hskips : b.Skips rest []) (hend : b.results [] = []) :
    (seq (star p) b).first (text ++ c :: rest) = some m := by
  rw [first, results_star_seq]
  induction text with
  | nil =>
    have hnone : (starRests p rest).flatMap b.results = [] :=
      List.flatMap_eq_nil_iff.mpr fun _ hmem => results_of_skips hskips hend hmem
    rw [List.nil_append, starRests_cons]
    split_ifs
    · rw [List.flatMap_append, hnone]
      simpa [first] using hm
    · simpa [first] using hm
  | cons d text ih =>
    obtain ⟨hd, htext⟩ := List.forall_mem_cons.mp hclass
    rw [List.cons_append, starRests_cons, if_pos hd, List.flatMap_append, List.head?_append,
      ih htext]
    rfl

end Search

end Pattern

end RtpBenchmarks.Foundation
