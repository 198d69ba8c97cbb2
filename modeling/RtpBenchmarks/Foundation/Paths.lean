import Mathlib.Data.List.Basic

set_option autoImplicit false

/-!
# Foundation: paths

A path is a text of names between slashes, and the directory of a path is what stands before
its last name.  Two texts denote the same directory when both or neither start at the root and
they have the same names, where empty names and single dots do not count.

Programs that look for the extension of a path cut it at its last dot, wherever that is.
-/

namespace RtpBenchmarks.Foundation

/-! ## The last occurrence -/

section Last

variable {α : Type} {a : α} {l l' : List α}

/-- A list cut at the last occurrence of a member. -/
theorem exists_last_of_mem (h : a ∈ l) : ∃ l₁ l₂, l = l₁ ++ a :: l₂ ∧ a ∉ l₂ := by
  obtain ⟨l₂, l₁, hl, hnot⟩ := List.eq_append_cons_of_mem (List.mem_reverse.mpr h)
  refine ⟨l₁.reverse, l₂.reverse, ?_, by simpa using hnot⟩
  rw [← List.reverse_reverse l, hl]
  simp

variable [DecidableEq α]

/-- The index of the last `a`. -/
def findLastOf (a : α) : List α → Option Nat
  | [] => none
  | b :: l =>
    match findLastOf a l with
    | some i => some (i + 1)
    | none => if b = a then some 0 else none

theorem findLastOf_cons (a b : α) (l : List α) : findLastOf a (b :: l) =
    match findLastOf a l with
    | some i => some (i + 1)
    | none => if b = a then some 0 else none := rfl

theorem findLastOf_eq_none (h : a ∉ l) : findLastOf a l = none := by
  induction l with
  | nil => rfl
  | cons b l ih =>
    rw [List.mem_cons, not_or] at h
    rw [findLastOf_cons, ih h.2, if_neg fun hb => h.1 hb.symm]

theorem findLastOf_append (h : a ∉ l') : findLastOf a (l ++ a :: l') = some l.length := by
  induction l with
  | nil => rw [List.nil_append, findLastOf_cons, findLastOf_eq_none h, if_pos rfl, List.length_nil]
  | cons b l ih => rw [List.cons_append, findLastOf_cons, ih, List.length_cons]

end Last

/-! ## Directories -/

/-- A directory: whether it is given from the root on, and the names on the way. -/
@[ext] structure Directory where
  absolute : Bool
  names : List (List Char)
  deriving DecidableEq, Repr

/-- The names that lead to another directory. -/
def properNames (names : List (List Char)) : List (List Char) :=
  names.filter fun name => name ≠ [] ∧ name ≠ ['.']

/-- The directory that a path lies in. -/
def directory (path : List Char) : Directory where
  absolute := path.head? = some '/'
  names := properNames (path.splitOn '/').dropLast

example : directory "/a//b/./c.txt".toList = ⟨true, ["a".toList, "b".toList]⟩ := by decide

section Directory

variable {path name rest suffix : List Char}

theorem properNames_append (names names' : List (List Char)) :
    properNames (names ++ names') = properNames names ++ properNames names' :=
  List.filter_append ..

/-- A path without a slash lies in the current directory. -/
theorem directory_of_not_mem (h : '/' ∉ path) : directory path = ⟨false, []⟩ := by
  have habsolute : path.head? ≠ some '/' := fun hhead => h (List.mem_of_head? hhead)
  simp [directory, habsolute, List.splitOn_eq_singleton h, properNames]

/-- The names before a slash and the directory of what stands behind it. -/
theorem names_append_slash (path rest : List Char) :
    (directory (path ++ '/' :: rest)).names =
      properNames (path.splitOn '/') ++ (directory rest).names := by
  rw [directory, List.splitOn_append_cons_self,
    List.dropLast_append_of_ne_nil (List.splitOn_ne_nil _ _), properNames_append, directory]

theorem absolute_append (h : path ≠ []) (suffix : List Char) :
    (directory (path ++ suffix)).absolute = (directory path).absolute := by
  rw [directory, directory, List.head?_append_of_ne_nil _ h]

/-- What is written behind a path without a slash stays in its directory. -/
theorem directory_append (path : List Char) (h : '/' ∉ suffix) :
    directory (path ++ suffix) = directory path := by
  by_cases hslash : '/' ∈ path
  · obtain ⟨dir, name, rfl, hname⟩ := exists_last_of_mem hslash
    have hlast : '/' ∉ name ++ suffix := by simp [hname, h]
    rw [Directory.ext_iff]
    refine ⟨absolute_append (by simp) suffix, ?_⟩
    rw [List.append_assoc, List.cons_append, names_append_slash, names_append_slash,
      directory_of_not_mem hlast, directory_of_not_mem hname]
  · rw [directory_of_not_mem hslash, directory_of_not_mem (by simp [hslash, h])]

theorem properNames_singleton :
    properNames [name] = if name = [] ∨ name = ['.'] then [] else [name] := by
  unfold properNames
  by_cases hempty : name = []
  · simp [hempty]
  · by_cases hdot : name = ['.'] <;> simp [hempty, hdot]

/-- The last name of a path is empty at its start and behind a slash, and goes on with what is
written behind it. -/
theorem exists_last_name (path : List Char) :
    ∃ last, (last = [] ↔ path = [] ∨ path.getLast? = some '/') ∧ ∀ suffix, '/' ∉ suffix →
      properNames ((path ++ suffix).splitOn '/') =
        (directory path).names ++ properNames [last ++ suffix] := by
  by_cases hslash : '/' ∈ path
  · obtain ⟨dir, last, rfl, hlast⟩ := exists_last_of_mem hslash
    refine ⟨last, ?_, fun suffix hsuffix => ?_⟩
    · rw [List.getLast?_append_cons]
      cases hend : last.getLast? with
      | none => simp [List.getLast?_cons, List.getLast?_eq_none_iff.mp hend]
      | some c =>
        have hc : c ≠ '/' := fun hc => hlast (hc ▸ List.mem_of_getLast? hend)
        have hne : last ≠ [] := by
          rintro rfl
          cases hend
        simp [List.getLast?_cons, hend, hne, hc]
    · rw [List.append_assoc, List.cons_append, List.splitOn_append_cons_self,
        List.splitOn_eq_singleton (show '/' ∉ last ++ suffix by simp [hlast, hsuffix]),
        properNames_append,
        names_append_slash, directory_of_not_mem hlast, List.append_nil]
  · refine ⟨path, ?_, fun suffix hsuffix => ?_⟩
    · have hend : path.getLast? ≠ some '/' := fun hend => hslash (List.mem_of_getLast? hend)
      simp [hend]
    · rw [List.splitOn_eq_singleton (show '/' ∉ path ++ suffix by simp [hslash, hsuffix]),
        directory_of_not_mem hslash,
        List.nil_append]

/-- A path that is slashes and one name, by its first character. -/
theorem slashes_cons {c : Char} :
    (∃ k name, c :: path = List.replicate k '/' ++ name ∧ '/' ∉ name) ↔
      '/' ∉ c :: path ∨
        c = '/' ∧ ∃ k name, path = List.replicate k '/' ++ name ∧ '/' ∉ name := by
  constructor
  · rintro ⟨k, name, heq, hname⟩
    cases k with
    | zero =>
      rw [List.replicate_zero, List.nil_append] at heq
      exact .inl (heq ▸ hname)
    | succ k =>
      obtain ⟨hc, hpath⟩ := List.cons.inj heq
      exact .inr ⟨hc, k, name, hpath, hname⟩
  · rintro (hslash | ⟨rfl, k, name, rfl, hname⟩)
    · exact ⟨0, c :: path, rfl, hslash⟩
    · exact ⟨k + 1, name, rfl, hname⟩

/-- A path without dots leads nowhere if and only if it is slashes and one name. -/
theorem names_eq_nil_iff (h : '.' ∉ path) :
    (directory path).names = [] ↔
      ∃ k name, path = List.replicate k '/' ++ name ∧ '/' ∉ name := by
  induction path with
  | nil => exact iff_of_true rfl ⟨0, [], rfl, List.not_mem_nil⟩
  | cons c path ih =>
    rw [slashes_cons]
    by_cases hslash : '/' ∈ c :: path
    · rw [or_iff_right (not_not.mpr hslash)]
      by_cases hc : c = '/'
      · subst hc
        have hnames : (directory ('/' :: path)).names = (directory path).names :=
          names_append_slash [] path
        rw [hnames, ih fun hdot => h (List.mem_cons_of_mem _ hdot), and_iff_right rfl]
      · -- the first name leads to another directory
        refine iff_of_false ?_ fun hslashes => hc hslashes.1
        obtain ⟨first, rest, heq, hfirst⟩ := List.eq_append_cons_of_mem hslash
        have hproper : ¬ (first = [] ∨ first = ['.']) := by
          rintro (rfl | rfl)
          · exact hc (List.cons.inj heq).1
          · exact h (heq ▸ List.mem_cons_self)
        rw [heq, names_append_slash, List.splitOn_eq_singleton hfirst, properNames_singleton,
          if_neg hproper]
        exact List.cons_ne_nil _ _
    · rw [directory_of_not_mem hslash]
      exact iff_of_true rfl (.inl hslash)

/-- What is written from a dot on leads to the same directory if and only if the dot is a name
of its own, with only slashes between it and the last name. -/
theorem directory_append_dot {ext : List Char} (hdot : '.' ∉ ext) (hslash : '/' ∈ ext) :
    directory (path ++ '.' :: ext) = directory path ↔
      (path = [] ∨ path.getLast? = some '/') ∧
        ∃ k name, ext = List.replicate (k + 1) '/' ++ name ∧ '/' ∉ name := by
  obtain ⟨first, rest, rfl, hfirst⟩ := List.eq_append_cons_of_mem hslash
  obtain ⟨last, hlast, hnames⟩ := exists_last_name path
  have habsolute : (directory (path ++ '.' :: (first ++ '/' :: rest))).absolute =
      (directory path).absolute := by
    cases path with
    | nil => rfl
    | cons c path => exact absolute_append (List.cons_ne_nil c path) _
  have hrest : '.' ∉ rest := fun h => hdot (by simp [h])
  have hsplit : path ++ '.' :: (first ++ '/' :: rest) = (path ++ '.' :: first) ++ '/' :: rest := by
    simp
  rw [Directory.ext_iff, and_iff_right habsolute, hsplit, names_append_slash,
    hnames _ (by simp [hfirst]), List.append_assoc, List.append_right_eq_self,
    List.append_eq_nil_iff, names_eq_nil_iff hrest, properNames_singleton, ← hlast]
  have halone : (if last ++ '.' :: first = [] ∨ last ++ '.' :: first = ['.'] then []
      else [last ++ '.' :: first]) = [] ↔ last = [] ∧ first = [] := by
    cases last <;> simp
  rw [halone, and_assoc]
  refine and_congr_right fun _ => ⟨?_, ?_⟩
  · rintro ⟨rfl, k, name, rfl, hname⟩
    exact ⟨k, name, rfl, hname⟩
  · rintro ⟨k, name, heq, hname⟩
    cases first with
    | nil => exact ⟨rfl, k, name, (List.cons.inj heq).2, hname⟩
    | cons c first => exact absurd ((List.cons.inj heq).1 ▸ List.mem_cons_self) hfirst

end Directory

end RtpBenchmarks.Foundation
