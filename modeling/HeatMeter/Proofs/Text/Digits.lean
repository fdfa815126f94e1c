/-
  HeatMeter.Proofs.Text.Digits
  ────────────────────────────
  **NUMBERS THAT ARE WRITTEN IN DIGITS ARE READ BACK.**

  A reader takes digits off the front of a text as long as there are some, so a run of
  digits is read whole if what follows it does not begin with one:

      digitRun_append      a run of digits before other text
      digitsUpTo_append    a run that is not longer than the reader allows
      digitsValue_decimal  the value of the digits of a number
-/
import HeatMeter.Text.Digits
import Mathlib

namespace HeatMeter.Text

/-- All characters are digits. -/
def AllDigits (ds : List Char) : Prop :=
  ∀ c ∈ ds, c.isDigit = true

/-- What stands there does not continue a run of digits. -/
def EndsDigits (rest : List Char) : Prop :=
  ∀ c ∈ rest.head?, c.isDigit = false

theorem endsDigits_nil : EndsDigits [] := by
  intro c hc
  cases hc

theorem endsDigits_cons {c : Char} (rest : List Char) (h : c.isDigit = false) :
    EndsDigits (c :: rest) := by
  intro d hd
  rw [List.head?_cons, Option.mem_some_iff] at hd
  rw [← hd, h]

section

variable {ds es rest : List Char}

theorem AllDigits.append (hd : AllDigits ds) (he : AllDigits es) : AllDigits (ds ++ es) := by
  intro c hc
  rcases List.mem_append.1 hc with hc | hc
  · exact hd c hc
  · exact he c hc

theorem AllDigits.take (hd : AllDigits ds) (n : Nat) : AllDigits (ds.take n) :=
  fun c hc => hd c (List.mem_of_mem_take hc)

theorem AllDigits.drop (hd : AllDigits ds) (n : Nat) : AllDigits (ds.drop n) :=
  fun c hc => hd c (List.mem_of_mem_drop hc)

theorem allDigits_zeros (n : Nat) : AllDigits (List.replicate n '0') := by
  intro c hc
  rw [List.eq_of_mem_replicate hc]
  rfl

/-! ## §1. Runs. -/

theorem takeWhile_digits (hd : AllDigits ds) (hrest : EndsDigits rest) :
    (ds ++ rest).takeWhile Char.isDigit = ds := by
  rw [List.takeWhile_append_of_pos hd]
  cases rest with
  | nil => rw [List.takeWhile_nil, List.append_nil]
  | cons c rest =>
    rw [List.takeWhile_cons_of_neg (by rw [hrest c rfl]; decide), List.append_nil]

/-- **A run of digits is read whole.** -/
theorem digitRun_append (hd : AllDigits ds) (hrest : EndsDigits rest) :
    digitRun (ds ++ rest) = (ds, rest) := by
  have htake := takeWhile_digits hd hrest
  have hdrop : (ds ++ rest).dropWhile Char.isDigit = rest := by
    have hsplit := List.takeWhile_append_dropWhile (p := Char.isDigit) (l := ds ++ rest)
    rw [htake] at hsplit
    exact List.append_cancel_left hsplit
  rw [digitRun, List.span_eq_takeWhile_dropWhile, htake, hdrop]

/-- A run of bounded length is read whole, and no further. -/
theorem digitsUpTo_append {width : Nat} (hne : ds ≠ []) (hd : AllDigits ds)
    (hlength : ds.length ≤ width) (hrest : ds.length = width ∨ EndsDigits rest) :
    digitsUpTo width (ds ++ rest) = some (digitsValue ds, rest) := by
  have htake : ((ds ++ rest).take width).takeWhile Char.isDigit = ds := by
    rw [List.take_append, List.take_of_length_le hlength]
    apply takeWhile_digits hd
    rcases hrest with hfull | hrest
    · rw [hfull, Nat.sub_self, List.take_zero]
      exact endsDigits_nil
    · intro c hc
      rw [List.head?_take] at hc
      split at hc
      · cases hc
      · exact hrest c hc
  unfold digitsUpTo
  dsimp only
  rw [htake, if_neg (by rw [List.isEmpty_iff]; exact hne), List.drop_left]

theorem digitsAny_append (hne : ds ≠ []) (hd : AllDigits ds) (hrest : EndsDigits rest) :
    digitsAny (ds ++ rest) = some (digitsValue ds, rest) :=
  digitsUpTo_append hne hd (by rw [List.length_append]; exact Nat.le_add_right _ _) (.inr hrest)

/-! ## §2. Values. -/

theorem digitsValue_eq (ds : List Char) : digitsValue ds = Nat.ofDigitChars 10 ds 0 :=
  Nat.ofDigitChars_eq_foldl.symm

theorem digitsValue_append (ds es : List Char) :
    digitsValue (ds ++ es) = digitsValue ds * 10 ^ es.length + digitsValue es := by
  rw [digitsValue_eq, digitsValue_eq, digitsValue_eq, Nat.ofDigitChars_append,
    Nat.ofDigitChars_eq_ofDigitChars_zero, Nat.mul_comm]

theorem digitsValue_zeros (n : Nat) : digitsValue (List.replicate n '0') = 0 := by
  rw [digitsValue_eq, Nat.ofDigitChars_replicate_zero, Nat.mul_zero]

/-- **The digits of a number have its value.** -/
theorem digitsValue_decimal (n : Nat) : digitsValue (decimal n) = n := by
  rw [digitsValue_eq]
  exact Nat.ofDigitChars_ten_toDigits

theorem allDigits_decimal (n : Nat) : AllDigits (decimal n) := by
  intro c hc
  exact Nat.isDigit_of_mem_toDigits (by decide) (by decide) hc

theorem decimal_ne_nil (n : Nat) : decimal n ≠ [] :=
  Nat.toDigits_ne_nil

/-- A positive number is not written with a zero in front. -/
theorem head?_decimal {n : Nat} (hn : 0 < n) : (decimal n).head? ≠ some '0' := by
  induction n using Nat.strongRecOn with
  | ind n ih =>
    by_cases hsmall : n < 10
    · rw [decimal, Nat.toDigits_of_lt_base hsmall, List.head?_cons]
      intro hzero
      exact hn.ne' (Nat.digitChar_eq_zero.1 (Option.some.inj hzero))
    · -- the first digit is that of the number without its last one
      have hsplit : decimal n = decimal (n / 10) ++ [(n % 10).digitChar] :=
        Nat.toDigits_of_base_le (by decide) (by omega)
      rw [hsplit, List.head?_append_of_ne_nil _ (decimal_ne_nil (n / 10))]
      exact ih (n / 10) (by omega) (by omega)

/-- The number of digits of a positive number. -/
theorem length_decimal {n : Nat} (hn : 0 < n) :
    10 ^ ((decimal n).length - 1) ≤ n ∧ n < 10 ^ (decimal n).length := by
  have hpos : 0 < (decimal n).length := Nat.length_toDigits_pos
  constructor
  · by_cases hone : (decimal n).length - 1 = 0
    · rw [hone]
      exact hn
    · by_contra hlt
      have hle : (decimal n).length ≤ (decimal n).length - 1 :=
        (Nat.length_toDigits_le_iff (by decide) (by omega)).2 (not_le.1 hlt)
      omega
  · exact (Nat.length_toDigits_le_iff (by decide) hpos).1 le_rfl

theorem digitsValue_padded (width n : Nat) : digitsValue (padded width n) = n := by
  unfold padded
  dsimp only
  rw [digitsValue_append, digitsValue_zeros, Nat.zero_mul, Nat.zero_add, digitsValue_decimal]

theorem allDigits_padded (width n : Nat) : AllDigits (padded width n) :=
  (allDigits_zeros _).append (allDigits_decimal n)

theorem padded_ne_nil (width n : Nat) : padded width n ≠ [] := by
  intro h
  exact decimal_ne_nil n (List.append_eq_nil_iff.1 h).2

theorem length_padded {width n : Nat} (hpos : 0 < width) (h : n < 10 ^ width) :
    (padded width n).length = width := by
  have hle : (decimal n).length ≤ width := (Nat.length_toDigits_le_iff (by decide) hpos).2 h
  unfold padded
  dsimp only
  rw [List.length_append, List.length_replicate]
  omega

end

end HeatMeter.Text
