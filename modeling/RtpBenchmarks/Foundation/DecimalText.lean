import Mathlib.Algebra.Group.Nat.Defs
import Mathlib.Data.List.Basic

set_option autoImplicit false

/-!
# Foundation: numbers in a line of text

A program writes numbers in decimal, with words and punctuation between them; another
reads back every maximal run of digits, which is what `/(\d+)/g` matches.  `Field`s that
end in a separator come back as the numbers that were written, whatever the separators
say.
-/

namespace RtpBenchmarks.Foundation

/-- The decimal digits of a number. -/
def decimal (n : Nat) : List Char :=
  Nat.toDigits 10 n

/-- A number filled up with zeros on the left. -/
def padded (width n : Nat) : List Char :=
  List.replicate (width - (decimal n).length) '0' ++ decimal n

/-- The number that digits stand for. -/
def digitsValue (digits : List Char) : Nat :=
  Nat.ofDigitChars 10 digits 0

/-- One or more digits. -/
def IsDigits (text : List Char) : Prop :=
  text ≠ [] ∧ ∀ c ∈ text, c.isDigit = true

instance (text : List Char) : Decidable (IsDigits text) :=
  decidable_of_iff ((!text.isEmpty && text.all Char.isDigit) = true) (by simp [IsDigits])

/-- The value of a digit appended to the number read so far. -/
def pushDigit (n : Nat) (c : Char) : Nat :=
  10 * n + (c.toNat - '0'.toNat)

/-- The numbers in a text, after a run of digits whose value is `n`, if any. -/
def digitRunsFrom : Option Nat → List Char → List Nat
  | none, [] => []
  | some n, [] => [n]
  | none, c :: cs => if c.isDigit then digitRunsFrom (some (pushDigit 0 c)) cs
      else digitRunsFrom none cs
  | some n, c :: cs => if c.isDigit then digitRunsFrom (some (pushDigit n c)) cs
      else n :: digitRunsFrom none cs

/-- The values of the maximal runs of digits of a text. -/
def digitRuns (text : List Char) : List Nat :=
  digitRunsFrom none text

/-- Text that ends a number and holds none. -/
def Separator (text : List Char) : Prop :=
  text ≠ [] ∧ ∀ c ∈ text, c.isDigit = false

instance (text : List Char) : Decidable (Separator text) :=
  decidable_of_iff ((!text.isEmpty && text.all fun c => !c.isDigit) = true)
    (by simp [Separator])

/-- A number and the text after it. -/
abbrev Field : Type := Nat × List Char

/-- A line of numbers, each followed by its text. -/
def fieldsText (fields : List Field) : List Char :=
  fields.flatMap fun f => decimal f.1 ++ f.2

theorem isDigits_decimal (n : Nat) : IsDigits (decimal n) :=
  ⟨Nat.toDigits_ne_nil, fun _ hc => Nat.isDigit_of_mem_toDigits (by decide) (by decide) hc⟩

theorem isDigits_padded (width n : Nat) : IsDigits (padded width n) := by
  refine ⟨by simp [padded, (isDigits_decimal n).1], ?_⟩
  intro c hc
  rcases List.mem_append.mp hc with hzero | hdigit
  · obtain rfl := List.eq_of_mem_replicate hzero
    rfl
  · exact (isDigits_decimal n).2 c hdigit

theorem IsDigits.not_mem {digits : List Char} (h : IsDigits digits) {c : Char}
    (hc : c.isDigit = false) : c ∉ digits := by
  intro hmem
  rw [h.2 c hmem] at hc
  cases hc

theorem takeWhile_digits {ds rest : List Char} (hds : IsDigits ds)
    (hrest : ∀ c ∈ rest.head?, c.isDigit = false) :
    (ds ++ rest).takeWhile Char.isDigit = ds := by
  rw [List.takeWhile_append_of_pos hds.2]
  cases rest with
  | nil => simp
  | cons c rest => simp [hrest c rfl]

theorem dropWhile_digits {ds rest : List Char} (hds : IsDigits ds)
    (hrest : ∀ c ∈ rest.head?, c.isDigit = false) :
    (ds ++ rest).dropWhile Char.isDigit = rest := by
  rw [List.dropWhile_append_of_pos hds.2]
  cases rest with
  | nil => simp
  | cons c rest => simp [hrest c rfl]

theorem toLower_of_isDigit {c : Char} (h : c.isDigit = true) : c.toLower = c := by
  refine dif_neg ?_
  rintro ⟨hA, -⟩
  simp only [Char.isDigit, Bool.and_eq_true, decide_eq_true_eq] at h
  have hle : ('A').val ≤ ('9').val := UInt32.le_trans hA h.2
  exact absurd hle (by decide)

@[simp] theorem digitsValue_decimal (n : Nat) : digitsValue (decimal n) = n :=
  Nat.ofDigitChars_ten_toDigits

/-- A number and what follows it are told apart by the character behind the number. -/
theorem decimal_append_inj {n m : Nat} {c : Char} {rest rest' : List Char}
    (hc : c.isDigit = false) (h : decimal n ++ c :: rest = decimal m ++ c :: rest') :
    n = m ∧ rest = rest' := by
  have hhead (rest : List Char) : ∀ d ∈ (c :: rest).head?, d.isDigit = false := by
    rintro d ⟨⟩
    exact hc
  have htake := congrArg (List.takeWhile Char.isDigit) h
  have hdrop := congrArg (List.dropWhile Char.isDigit) h
  rw [takeWhile_digits (isDigits_decimal n) (hhead rest),
    takeWhile_digits (isDigits_decimal m) (hhead rest')] at htake
  rw [dropWhile_digits (isDigits_decimal n) (hhead rest),
    dropWhile_digits (isDigits_decimal m) (hhead rest')] at hdrop
  have hvalue := congrArg digitsValue htake
  rw [digitsValue_decimal, digitsValue_decimal] at hvalue
  exact ⟨hvalue, (List.cons.inj hdrop).2⟩

theorem digitsValue_append (ds es : List Char) :
    digitsValue (ds ++ es) = 10 ^ es.length * digitsValue ds + digitsValue es := by
  rw [digitsValue, Nat.ofDigitChars_append, Nat.ofDigitChars_eq_ofDigitChars_zero]
  rfl

@[simp] theorem digitsValue_padded (width n : Nat) : digitsValue (padded width n) = n := by
  rw [padded, digitsValue, Nat.ofDigitChars_append, Nat.ofDigitChars_replicate_zero, Nat.mul_zero]
  exact digitsValue_decimal n

theorem length_padded {width n : Nat} (hwidth : 0 < width) (h : n < 10 ^ width) :
    (padded width n).length = width := by
  have hle : (decimal n).length ≤ width :=
    (Nat.length_toDigits_le_iff (by decide) hwidth).mpr h
  rw [padded, List.length_append, List.length_replicate, Nat.sub_add_cancel hle]

theorem digitRunsFrom_none_cons (c : Char) (cs : List Char) : digitRunsFrom none (c :: cs) =
    if c.isDigit then digitRunsFrom (some (pushDigit 0 c)) cs else digitRunsFrom none cs := rfl

theorem digitRunsFrom_some_cons (n : Nat) (c : Char) (cs : List Char) :
    digitRunsFrom (some n) (c :: cs) =
      if c.isDigit then digitRunsFrom (some (pushDigit n c)) cs
      else n :: digitRunsFrom none cs := rfl

theorem digitRunsFrom_none_append {text : List Char} (h : ∀ c ∈ text, c.isDigit = false)
    (rest : List Char) : digitRunsFrom none (text ++ rest) = digitRunsFrom none rest := by
  induction text with
  | nil => rfl
  | cons c text ih =>
    obtain ⟨hc, htext⟩ := List.forall_mem_cons.mp h
    rw [List.cons_append, digitRunsFrom_none_cons, if_neg (by simp [hc]), ih htext]

theorem digitRunsFrom_some_append {digits : List Char} (h : ∀ c ∈ digits, c.isDigit = true)
    (n : Nat) (rest : List Char) :
    digitRunsFrom (some n) (digits ++ rest) =
      digitRunsFrom (some (Nat.ofDigitChars 10 digits n)) rest := by
  induction digits generalizing n with
  | nil => rfl
  | cons c digits ih =>
    obtain ⟨hc, hdigits⟩ := List.forall_mem_cons.mp h
    rw [List.cons_append, digitRunsFrom_some_cons, if_pos hc, ih hdigits, Nat.ofDigitChars_cons]
    rfl

/-- Digits are read to their end. -/
theorem digitRunsFrom_digits {digits : List Char} (h : IsDigits digits) (rest : List Char) :
    digitRunsFrom none (digits ++ rest) = digitRunsFrom (some (digitsValue digits)) rest := by
  obtain ⟨hne, hdigits⟩ := h
  cases digits with
  | nil => exact absurd rfl hne
  | cons c digits =>
    obtain ⟨hc, htail⟩ := List.forall_mem_cons.mp hdigits
    rw [List.cons_append, digitRunsFrom_none_cons, if_pos hc, digitRunsFrom_some_append htail,
      digitsValue, Nat.ofDigitChars_cons]
    rfl

/-- A written number is read to its end. -/
theorem digitRunsFrom_decimal (n : Nat) (rest : List Char) :
    digitRunsFrom none (decimal n ++ rest) = digitRunsFrom (some n) rest := by
  rw [digitRunsFrom_digits (isDigits_decimal n), digitsValue_decimal]

theorem digitRunsFrom_separator {text : List Char} (h : Separator text) (n : Nat)
    (rest : List Char) :
    digitRunsFrom (some n) (text ++ rest) = n :: digitRunsFrom none rest := by
  obtain ⟨hne, htext⟩ := h
  cases text with
  | nil => exact absurd rfl hne
  | cons c text =>
    obtain ⟨hc, htext⟩ := List.forall_mem_cons.mp htext
    rw [List.cons_append, digitRunsFrom_some_cons, if_neg (by simp [hc]),
      digitRunsFrom_none_append htext]

/-- What is read back is what was written. -/
theorem digitRuns_fieldsText {fields : List Field} (h : ∀ f ∈ fields, Separator f.2) :
    digitRuns (fieldsText fields) = fields.map Prod.fst := by
  unfold digitRuns
  induction fields with
  | nil => rfl
  | cons f fields ih =>
    obtain ⟨hf, hfields⟩ := List.forall_mem_cons.mp h
    calc digitRunsFrom none (fieldsText (f :: fields))
        = digitRunsFrom none (decimal f.1 ++ (f.2 ++ fieldsText fields)) := by
          rw [fieldsText, List.flatMap_cons, List.append_assoc]; rfl
      _ = f.1 :: digitRunsFrom none (fieldsText fields) := by
          rw [digitRunsFrom_decimal, digitRunsFrom_separator hf]
      _ = (f :: fields).map Prod.fst := by rw [ih hfields, List.map_cons]

/-- A character of a line that is no digit is in the text after a number. -/
theorem not_mem_fieldsText {c : Char} (hc : c.isDigit = false) {fields : List Field}
    (h : ∀ f ∈ fields, c ∉ f.2) : c ∉ fieldsText fields := by
  intro hmem
  obtain ⟨f, hf, hmem⟩ := List.mem_flatMap.mp hmem
  rcases List.mem_append.mp hmem with hdigit | htext
  · exact (isDigits_decimal f.1).not_mem hc hdigit
  · exact h f hf htext

end RtpBenchmarks.Foundation
