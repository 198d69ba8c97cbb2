import Mathlib.Data.List.Basic

set_option autoImplicit false

/-!
# Foundation: lines of a text file

A line ends behind its newline; what follows the last newline is a line if there is any.
Lines that were written one after the other are read back as they were written.
-/

namespace RtpBenchmarks.Foundation

/-- The lines of a text, each with its newline, when `line` has been read of the first. -/
def linesFrom (line : List Char) : List Char → List (List Char)
  | [] => if line = [] then [] else [line]
  | c :: text =>
    if c = '\n' then (line ++ [c]) :: linesFrom [] text else linesFrom (line ++ [c]) text

/-- The lines of a text, each with its newline. -/
def textLines (text : List Char) : List (List Char) :=
  linesFrom [] text

/-- Text without a newline, and a newline. -/
def IsLine (line : List Char) : Prop :=
  ∃ body, line = body ++ ['\n'] ∧ '\n' ∉ body

theorem isLine_append {body : List Char} (h : '\n' ∉ body) : IsLine (body ++ ['\n']) :=
  ⟨body, rfl, h⟩

theorem linesFrom_append {body : List Char} (h : '\n' ∉ body) (line text : List Char) :
    linesFrom line (body ++ '\n' :: text) = (line ++ body ++ ['\n']) :: textLines text := by
  induction body generalizing line with
  | nil => simp [linesFrom, textLines]
  | cons c body ih =>
    simp only [List.mem_cons, not_or] at h
    obtain ⟨hc, hbody⟩ := h
    rw [List.cons_append, linesFrom, if_neg (Ne.symm hc), ih hbody]
    simp

/-- Lines are read back. -/
theorem textLines_flatten {lines : List (List Char)} (h : ∀ line ∈ lines, IsLine line) :
    textLines lines.flatten = lines := by
  induction lines with
  | nil => rfl
  | cons line lines ih =>
    obtain ⟨hline, hlines⟩ := List.forall_mem_cons.mp h
    obtain ⟨body, rfl, hbody⟩ := hline
    calc textLines ((body ++ ['\n']) :: lines).flatten
        = linesFrom [] (body ++ '\n' :: lines.flatten) := by simp [textLines]
      _ = (body ++ ['\n']) :: lines := by rw [linesFrom_append hbody, ih hlines, List.nil_append]

end RtpBenchmarks.Foundation
