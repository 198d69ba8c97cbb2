import RtpBenchmarks.Foundation.DecimalText

set_option autoImplicit false

/-!
# Foundation: the order of texts

Texts are compared character by character, and one that ends first comes first.  Numbers of
the same number of digits are in this order as they are as numbers; others are not.
-/

namespace RtpBenchmarks.Foundation

/-- Whether `sort` leaves the texts in this order. -/
def textLe : List Char → List Char → Bool
  | [], _ => true
  | _ :: _, [] => false
  | c :: cs, d :: ds => decide (c.toNat < d.toNat) || (c == d && textLe cs ds)

variable {c d sep : Char} {cs ds es xs ys : List Char}

theorem textLe_cons_cons (c d : Char) (cs ds : List Char) : textLe (c :: cs) (d :: ds) =
    (decide (c.toNat < d.toNat) || (c == d && textLe cs ds)) := rfl

theorem textLe_cons :
    textLe (c :: cs) (d :: ds) = true ↔ c.toNat < d.toNat ∨ (c = d ∧ textLe cs ds = true) := by
  simp [textLe_cons_cons]

theorem textLe_cons_self : textLe (c :: xs) (c :: ys) = textLe xs ys := by
  simp [textLe_cons_cons]

theorem textLe_append_left (cs : List Char) : textLe (cs ++ xs) (cs ++ ys) = textLe xs ys := by
  induction cs with
  | nil => rfl
  | cons c cs ih => rw [List.cons_append, List.cons_append, textLe_cons_self, ih]

/-- Characters with the same number are the same. -/
theorem eq_of_toNat_eq (h : c.toNat = d.toNat) : c = d :=
  Char.ext (UInt32.toNat_inj.mp h)

theorem textLe_total (cs ds : List Char) : (textLe cs ds || textLe ds cs) = true := by
  rw [Bool.or_eq_true]
  induction cs generalizing ds with
  | nil => exact .inl rfl
  | cons c cs ih =>
    cases ds with
    | nil => exact .inr rfl
    | cons d ds =>
      rw [textLe_cons, textLe_cons]
      rcases Nat.lt_trichotomy c.toNat d.toNat with hlt | heq | hgt
      · exact .inl (.inl hlt)
      · obtain rfl := eq_of_toNat_eq heq
        exact (ih ds).imp (fun h => .inr ⟨rfl, h⟩) fun h => .inr ⟨rfl, h⟩
      · exact .inr (.inl hgt)

theorem textLe_trans (cs ds es : List Char) (h : textLe cs ds = true) (h' : textLe ds es = true) :
    textLe cs es = true := by
  induction cs generalizing ds es with
  | nil => rfl
  | cons c cs ih =>
    cases ds with
    | nil => cases h
    | cons d ds =>
      cases es with
      | nil => cases h'
      | cons e es =>
        rw [textLe_cons] at h h' ⊢
        rcases h with hlt | ⟨rfl, hle⟩
        · rcases h' with hlt' | ⟨rfl, -⟩
          · exact .inl (Nat.lt_trans hlt hlt')
          · exact .inl hlt
        · exact h'.imp_right fun ⟨heq, hle'⟩ => ⟨heq, ih ds es hle hle'⟩

theorem textLe_antisymm (h : textLe cs ds = true) (h' : textLe ds cs = true) : cs = ds := by
  induction cs generalizing ds with
  | nil =>
    cases ds with
    | nil => rfl
    | cons d ds => cases h'
  | cons c cs ih =>
    cases ds with
    | nil => cases h
    | cons d ds =>
      rw [textLe_cons] at h h'
      rcases h with hlt | ⟨rfl, hle⟩
      · rcases h' with hlt' | ⟨rfl, -⟩ <;> omega
      · rcases h' with hlt' | ⟨-, hle'⟩
        · omega
        · rw [ih hle hle']

/-- Different texts stay in order when the same character is put behind both, if it comes
before all of the second text. -/
theorem textLe_append_cons (hsep : ∀ e ∈ es, sep.toNat < e.toNat) (h : textLe ds es = true)
    (hne : ds ≠ es) (xs ys : List Char) :
    textLe (ds ++ sep :: xs) (es ++ sep :: ys) = true := by
  induction ds generalizing es with
  | nil =>
    cases es with
    | nil => exact absurd rfl hne
    | cons e es => exact textLe_cons.mpr (.inl (hsep e (List.mem_cons_self ..)))
  | cons d ds ih =>
    cases es with
    | nil => cases h
    | cons e es =>
      rw [textLe_cons] at h
      refine textLe_cons.mpr (h.imp_right fun ⟨heq, hle⟩ => ⟨heq, ?_⟩)
      refine ih (fun e' he' => hsep e' (List.mem_cons_of_mem _ he')) hle ?_
      rintro rfl
      exact hne (by rw [heq])

/-- What `sort` makes of texts. -/
theorem mergeSort_texts {texts sorted : List (List Char)} (hperm : texts.Perm sorted)
    (hsorted : sorted.Pairwise fun cs ds => textLe cs ds = true) :
    texts.mergeSort textLe = sorted :=
  ((List.mergeSort_perm texts textLe).trans hperm).eq_of_pairwise
    (fun _ _ _ _ => textLe_antisymm)
    (List.pairwise_mergeSort textLe_trans textLe_total texts) hsorted

/-! ## Numbers -/

theorem toNat_of_isDigit (h : c.isDigit = true) : 48 ≤ c.toNat ∧ c.toNat ≤ 57 :=
  Char.isDigit_iff_toNat.mp h

theorem digitsValue_cons (c : Char) (ds : List Char) :
    digitsValue (c :: ds) = 10 ^ ds.length * (c.toNat - 48) + digitsValue ds := by
  have hvalue : digitsValue [c] = c.toNat - 48 := by simp [digitsValue, Nat.ofDigitChars_cons]
  rw [← hvalue, ← digitsValue_append, List.singleton_append]

theorem digitsValue_lt (h : ∀ c ∈ ds, c.isDigit = true) : digitsValue ds < 10 ^ ds.length := by
  induction ds with
  | nil => decide
  | cons c ds ih =>
    obtain ⟨hc, hds⟩ := List.forall_mem_cons.mp h
    have hdigit : c.toNat - 48 + 1 ≤ 10 := by
      have := toNat_of_isDigit hc
      omega
    calc digitsValue (c :: ds)
        = 10 ^ ds.length * (c.toNat - 48) + digitsValue ds := digitsValue_cons c ds
      _ < 10 ^ ds.length * (c.toNat - 48) + 10 ^ ds.length := Nat.add_lt_add_left (ih hds) _
      _ = 10 ^ ds.length * (c.toNat - 48 + 1) := (Nat.mul_succ _ _).symm
      _ ≤ 10 ^ ds.length * 10 := Nat.mul_le_mul_left _ hdigit
      _ = 10 ^ (c :: ds).length := (Nat.pow_succ ..).symm

/-- Numbers with as many digits that are in order as texts are so as numbers. -/
theorem digitsValue_le_of_textLe (hds : ∀ c ∈ ds, c.isDigit = true)
    (hes : ∀ c ∈ es, c.isDigit = true) (hlength : ds.length = es.length)
    (h : textLe ds es = true) : digitsValue ds ≤ digitsValue es := by
  induction ds generalizing es with
  | nil => exact Nat.zero_le _
  | cons d ds ih =>
    cases es with
    | nil => cases h
    | cons e es =>
      obtain ⟨hd, hds'⟩ := List.forall_mem_cons.mp hds
      obtain ⟨-, hes'⟩ := List.forall_mem_cons.mp hes
      have hlen : ds.length = es.length := Nat.succ.inj hlength
      rw [digitsValue_cons, digitsValue_cons, hlen]
      rcases textLe_cons.mp h with hlt | ⟨rfl, hle⟩
      · have hdigit : d.toNat - 48 + 1 ≤ e.toNat - 48 := by
          have := toNat_of_isDigit hd
          omega
        have hvalue := digitsValue_lt hds'
        rw [hlen] at hvalue
        have hmul := Nat.mul_le_mul_left (10 ^ es.length) hdigit
        rw [Nat.mul_succ] at hmul
        omega
      · exact Nat.add_le_add_left (ih hds' hes' hlen hle) _

/-- Padded numbers are in order as texts. -/
theorem textLe_padded {width n m : Nat} (hwidth : 0 < width) (hn : n < 10 ^ width)
    (hm : m < 10 ^ width) (h : n < m) : textLe (padded width n) (padded width m) = true := by
  refine (Bool.or_eq_true _ _ ▸ textLe_total (padded width n) (padded width m)).resolve_right ?_
  intro hle
  have hlength : (padded width m).length = (padded width n).length := by
    rw [length_padded hwidth hn, length_padded hwidth hm]
  have hvalue := digitsValue_le_of_textLe (isDigits_padded width m).2 (isDigits_padded width n).2
    hlength hle
  rw [digitsValue_padded, digitsValue_padded] at hvalue
  omega

/-- The first digit of a positive number is not zero. -/
theorem exists_decimal_eq_cons {n : Nat} (h : 0 < n) :
    ∃ d ds, decimal n = d :: ds ∧ 49 ≤ d.toNat := by
  induction n using Nat.strongRecOn with
  | ind n ih =>
    by_cases hlt : n < 10
    · refine ⟨n.digitChar, [], Nat.toDigits_of_lt_base hlt, ?_⟩
      rw [Nat.toNat_digitChar_of_lt_ten hlt]
      omega
    · obtain ⟨d, ds, hdecimal, hd⟩ := ih (n / 10) (by omega) (by omega)
      have happend : decimal n = decimal (n / 10) ++ [(n % 10).digitChar] :=
        Nat.toDigits_of_base_le (by decide) (by omega)
      exact ⟨d, ds ++ [(n % 10).digitChar], by rw [happend, hdecimal]; rfl, hd⟩

/-- One comes first among the positive numbers. -/
theorem textLe_decimal_one {n : Nat} (h : 0 < n) : textLe (decimal 1) (decimal n) = true := by
  obtain ⟨d, ds, hdecimal, hd⟩ := exists_decimal_eq_cons h
  rw [hdecimal]
  refine textLe_cons.mpr ?_
  rcases Nat.lt_or_eq_of_le hd with hlt | heq
  · exact .inl hlt
  · exact .inr ⟨eq_of_toNat_eq heq, rfl⟩

end RtpBenchmarks.Foundation
