import Mathlib.Data.List.Basic

set_option autoImplicit false

/-!
# Foundation: words of a text

Words are joined by a separator and found again by splitting the text at its blanks, whatever
number of them there is.  `blank` says which characters are blanks.
-/

namespace RtpBenchmarks.Foundation

/-- The texts with a separator between them. -/
def join (sep : List Char) : List (List Char) → List Char
  | [] => []
  | [word] => word
  | word :: next :: rest => word ++ sep ++ join sep (next :: rest)

/-- The words of a text, when `word` has been read of the first. -/
def wordsFrom (blank : Char → Bool) (word : List Char) : List Char → List (List Char)
  | [] => if word = [] then [] else [word]
  | c :: text =>
    if blank c then
      if word = [] then wordsFrom blank [] text else word :: wordsFrom blank [] text
    else wordsFrom blank (word ++ [c]) text

/-- The words of a text. -/
def words (blank : Char → Bool) (text : List Char) : List (List Char) :=
  wordsFrom blank [] text

/-- A text that is not empty and has no blanks. -/
def IsWord (blank : Char → Bool) (word : List Char) : Prop :=
  word ≠ [] ∧ ∀ c ∈ word, blank c = false

section Words

variable {blank : Char → Bool} {sep : List Char} {c : Char} {word : List Char}
  {ws ws' : List (List Char)}

theorem join_cons (word : List Char) (h : ws ≠ []) :
    join sep (word :: ws) = word ++ sep ++ join sep ws := by
  cases ws with
  | nil => exact absurd rfl h
  | cons next rest => rfl

theorem join_append (h : ws ≠ []) (h' : ws' ≠ []) :
    join sep (ws ++ ws') = join sep ws ++ sep ++ join sep ws' := by
  induction ws with
  | nil => exact absurd rfl h
  | cons word ws ih =>
    cases ws with
    | nil => exact join_cons word h'
    | cons next rest =>
      rw [List.cons_append, join_cons word (by simp), ih (by simp), join_cons word (by simp)]
      simp only [List.append_assoc]

theorem wordsFrom_nil (blank : Char → Bool) (word : List Char) :
    wordsFrom blank word [] = if word = [] then [] else [word] := rfl

theorem wordsFrom_cons (blank : Char → Bool) (word : List Char) (c : Char) (text : List Char) :
    wordsFrom blank word (c :: text) =
      if blank c then
        if word = [] then wordsFrom blank [] text else word :: wordsFrom blank [] text
      else wordsFrom blank (word ++ [c]) text := rfl

theorem wordsFrom_append (hword : ∀ c ∈ word, blank c = false) (read text : List Char) :
    wordsFrom blank read (word ++ text) = wordsFrom blank (read ++ word) text := by
  induction word generalizing read with
  | nil => rw [List.nil_append, List.append_nil]
  | cons c word ih =>
    obtain ⟨hc, hword⟩ := List.forall_mem_cons.mp hword
    rw [List.cons_append, wordsFrom_cons, if_neg (by simp [hc]), ih hword, List.append_assoc]
    rfl

theorem words_cons (hword : IsWord blank word) (hc : blank c = true) (text : List Char) :
    words blank (word ++ c :: text) = word :: words blank text := by
  rw [words, wordsFrom_append hword.2, List.nil_append, wordsFrom_cons, if_pos hc, if_neg hword.1]
  rfl

theorem words_singleton (hword : IsWord blank word) : words blank word = [word] := by
  have happend := @wordsFrom_append blank word hword.2 [] []
  rw [List.append_nil, List.nil_append] at happend
  rw [words, happend, wordsFrom_nil, if_neg hword.1]

/-- Words that are joined by a blank are found again. -/
theorem words_join (hc : blank c = true) (h : ∀ word ∈ ws, IsWord blank word) :
    words blank (join [c] ws) = ws := by
  induction ws with
  | nil => rfl
  | cons word ws ih =>
    obtain ⟨hword, hws⟩ := List.forall_mem_cons.mp h
    cases ws with
    | nil => exact words_singleton hword
    | cons next rest =>
      rw [join, List.append_assoc, List.singleton_append, words_cons hword hc, ih hws]

end Words

end RtpBenchmarks.Foundation
