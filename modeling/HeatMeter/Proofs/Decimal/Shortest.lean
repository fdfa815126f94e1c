/-
  HeatMeter.Proofs.Decimal.Shortest
  ─────────────────────────────────
  **THE DIGITS OF A FLOAT NAME IT.**

  The digits written are the first of 1, 2, …, 17 places that read back.  With 17
  places some do: the multiples of the 17th place are closer to each other than the
  floats are, so that of the two neighbours of a float the nearer one reads back.

      magnitude_spec      the place of the first digit
      readsBack_iff       the test, as an inequality of rationals
      onGrid_isSome       with 17 places the test is passed
      shortest_rounds     the digits written round to the float
-/
import HeatMeter.Decimal.Shortest
import HeatMeter.Proofs.Scalar.Rounding
import HeatMeter.Proofs.Text.Digits

namespace HeatMeter.Decimal

open FloatLaws (RoundsTo)

/-! ## §1. Fractions. -/

theorem scaled_den_pos (n : Nat) (e k : Int) : 0 < (scaled n e k).den :=
  Nat.mul_pos (Nat.pow_pos (by decide)) (Nat.pow_pos (by decide))

/-- A power with a whole exponent, from its two parts. -/
theorem zpow_parts {b : ℚ} (hb : b ≠ 0) (e : ℤ) : b ^ e * b ^ (-e).toNat = b ^ e.toNat := by
  rw [← zpow_natCast, ← zpow_natCast, ← zpow_add₀ hb]
  congr 1
  omega

theorem scaled_eq (n : Nat) (e k : Int) :
    ((scaled n e k).num : ℚ) = n * 2 ^ e * 10 ^ k * (scaled n e k).den := by
  have htwo := zpow_parts (b := 2) two_ne_zero e
  have hten := zpow_parts (b := 10) (by norm_num) k
  show ((n * 2 ^ e.toNat * 10 ^ k.toNat : ℕ) : ℚ)
    = n * 2 ^ e * 10 ^ k * (2 ^ (-e).toNat * 10 ^ (-k).toNat : ℕ)
  push_cast
  rw [← htwo, ← hten]
  ring

/-- Comparing a fraction with a whole number, without dividing. -/
theorem scaled_le_iff {n c : Nat} {e g : Int} :
    (scaled n e (-g)).num ≤ c * (scaled n e (-g)).den ↔ (n : ℚ) * 2 ^ e ≤ c * 10 ^ g := by
  have hden : (0 : ℚ) < (scaled n e (-g)).den := by exact_mod_cast scaled_den_pos n e (-g)
  have hten : (0 : ℚ) < 10 ^ g := zpow_pos (by norm_num) _
  rw [← Nat.cast_le (α := ℚ), scaled_eq, Nat.cast_mul, mul_le_mul_iff_left₀ hden, zpow_neg,
    ← div_eq_mul_inv, div_le_iff₀ hten]

theorem le_scaled_iff {n c : Nat} {e g : Int} :
    c * (scaled n e (-g)).den ≤ (scaled n e (-g)).num ↔ (c : ℚ) * 10 ^ g ≤ n * 2 ^ e := by
  have hden : (0 : ℚ) < (scaled n e (-g)).den := by exact_mod_cast scaled_den_pos n e (-g)
  have hten : (0 : ℚ) < 10 ^ g := zpow_pos (by norm_num) _
  rw [← Nat.cast_le (α := ℚ), scaled_eq, Nat.cast_mul, mul_le_mul_iff_left₀ hden, zpow_neg,
    ← div_eq_mul_inv, le_div_iff₀ hten]

/-! ## §2. The place of the first digit. -/

/-- **The magnitude is the power of ten just above.** -/
theorem magnitude_spec {m : Nat} {e : Int} (hm : 0 < m) (he : -1074 ≤ e) :
    (10 : ℚ) ^ (magnitude m e - 1) ≤ m * 2 ^ e ∧ (m : ℚ) * 2 ^ e < 10 ^ magnitude m e := by
  have hden : (0 : ℚ) < (scaled m e 330).den := by exact_mod_cast scaled_den_pos m e 330
  have hden' : 0 < (scaled m e 330).den := scaled_den_pos m e 330
  have hten : (0 : ℚ) < 10 ^ (330 : ℤ) := zpow_pos (by norm_num) _
  obtain ⟨q, hq⟩ : ∃ q, q = (scaled m e 330).num / (scaled m e 330).den := ⟨_, rfl⟩
  have hlow : (q : ℚ) ≤ m * 2 ^ e * 10 ^ (330 : ℤ) := by
    rw [← mul_le_mul_iff_left₀ hden, ← scaled_eq]
    exact_mod_cast hq ▸ Nat.div_mul_le_self _ _
  have hhigh : m * 2 ^ e * 10 ^ (330 : ℤ) < ((q + 1 : ℕ) : ℚ) := by
    rw [← mul_lt_mul_iff_left₀ hden, ← scaled_eq]
    have hdiv : (scaled m e 330).num < (q + 1) * (scaled m e 330).den := by
      rw [← Nat.div_lt_iff_lt_mul hden', ← hq]
      exact Nat.lt_succ_self q
    exact_mod_cast hdiv
  -- 330 places reach below the smallest float
  have hone : 1 ≤ q := by
    have hm' : (1 : ℚ) ≤ m := by exact_mod_cast hm
    obtain ⟨a, ha⟩ : ∃ a : ℕ, a = 2 ^ 1074 := ⟨_, rfl⟩
    obtain ⟨b, hb⟩ : ∃ b : ℕ, b = 10 ^ 330 := ⟨_, rfl⟩
    have hplaces : a ≤ b := by
      rw [ha, hb]
      decide +kernel
    have hpos : 0 < a := ha ▸ pow_pos two_pos 1074
    have hunit : (2 : ℚ) ^ (-1074 : ℤ) * 10 ^ (330 : ℤ) = b / a := by
      rw [ha, hb, Nat.cast_pow, Nat.cast_pow, div_eq_inv_mul]
      exact congrArg₂ (· * ·) (zpow_neg 2 _) rfl
    have hsmallest : (1 : ℚ) ≤ m * 2 ^ e * 10 ^ (330 : ℤ) := by
      calc (1 : ℚ) ≤ b / a := (one_le_div₀ (Nat.cast_pos.2 hpos)).2 (Nat.cast_le.2 hplaces)
        _ = 2 ^ (-1074 : ℤ) * 10 ^ (330 : ℤ) := hunit.symm
        _ ≤ m * 2 ^ e * 10 ^ (330 : ℤ) := by
          apply mul_le_mul_of_nonneg_right _ hten.le
          exact (zpow_le_zpow_right₀ one_le_two he).trans
            (le_mul_of_one_le_left (zpow_nonneg two_pos.le _) hm')
    by_contra hzero
    obtain rfl : q = 0 := by omega
    rw [zero_add, Nat.cast_one] at hhigh
    exact absurd hsmallest (not_le.2 hhigh)
  obtain ⟨hdigits, hdigits'⟩ := Text.length_decimal hone
  have hmagnitude : magnitude m e = ((Text.decimal q).length : ℤ) - 330 := by
    rw [hq]
    rfl
  have hlength : 0 < (Text.decimal q).length := Nat.length_toDigits_pos
  rw [hmagnitude]
  generalize (Text.decimal q).length = n at hdigits hdigits' hlength ⊢
  constructor
  · have hcast : ((10 ^ (n - 1) : ℕ) : ℚ) = 10 ^ ((n : ℤ) - 330 - 1) * 10 ^ (330 : ℤ) := by
      rw [← zpow_add₀ (by norm_num), Nat.cast_pow, Nat.cast_ofNat, ← zpow_natCast]
      congr 1
      omega
    rw [← mul_le_mul_iff_left₀ hten, ← hcast]
    exact (Nat.cast_le.2 hdigits).trans hlow
  · have hcast : ((10 ^ n : ℕ) : ℚ) = 10 ^ ((n : ℤ) - 330) * 10 ^ (330 : ℤ) := by
      rw [← zpow_add₀ (by norm_num), Nat.cast_pow, Nat.cast_ofNat, ← zpow_natCast]
      congr 1
      omega
    rw [← mul_lt_mul_iff_left₀ hten, ← hcast]
    exact hhigh.trans_le (Nat.cast_le.2 hdigits')

/-! ## §3. The test. -/

/-- How far below a float the numbers begin that round to it, in quarters of a place. -/
def slack (m : Nat) (e : Int) : Nat :=
  if m = 2 ^ 52 ∧ -1074 < e then 1 else 2

/-- **The test for reading back is a comparison of rationals.** -/
theorem readsBack_iff {m c : Nat} {e g : Int} (hm : 0 < m) :
    readsBack m e c g = true ↔
      if m % 2 = 0 then
        (m - slack m e / 4 : ℚ) * 2 ^ e ≤ c * 10 ^ g ∧ (c : ℚ) * 10 ^ g ≤ (m + 1 / 2) * 2 ^ e
      else
        (m - slack m e / 4 : ℚ) * 2 ^ e < c * 10 ^ g ∧ (c : ℚ) * 10 ^ g < (m + 1 / 2) * 2 ^ e := by
  have hslack : slack m e ≤ 4 * m := by
    unfold slack
    split <;> omega
  have hquarter : (2 : ℚ) ^ (e - 2) = 2 ^ e / 4 := by
    rw [zpow_sub₀ two_ne_zero]
    norm_num
  have hlow : ((4 * m - slack m e : ℕ) : ℚ) * 2 ^ (e - 2) = (m - slack m e / 4) * 2 ^ e := by
    rw [Nat.cast_sub hslack, hquarter]
    push_cast
    ring
  have hhigh : ((4 * m + 2 : ℕ) : ℚ) * 2 ^ (e - 2) = (m + 1 / 2) * 2 ^ e := by
    rw [hquarter]
    push_cast
    ring
  show (if m % 2 = 0 then
      decide ((scaled (4 * m - slack m e) (e - 2) (-g)).num
          ≤ c * (scaled (4 * m - slack m e) (e - 2) (-g)).den)
        && decide (c * (scaled (4 * m + 2) (e - 2) (-g)).den
          ≤ (scaled (4 * m + 2) (e - 2) (-g)).num)
    else
      decide ((scaled (4 * m - slack m e) (e - 2) (-g)).num
          < c * (scaled (4 * m - slack m e) (e - 2) (-g)).den)
        && decide (c * (scaled (4 * m + 2) (e - 2) (-g)).den
          < (scaled (4 * m + 2) (e - 2) (-g)).num)) = true ↔ _
  by_cases heven : m % 2 = 0
  · rw [if_pos heven, if_pos heven, Bool.and_eq_true, decide_eq_true_eq, decide_eq_true_eq,
      scaled_le_iff, le_scaled_iff, hlow, hhigh]
  · rw [if_neg heven, if_neg heven, Bool.and_eq_true, decide_eq_true_eq, decide_eq_true_eq,
      ← not_le, ← not_le, le_scaled_iff, scaled_le_iff, hlow, hhigh, not_le, not_le]

theorem readsBack_of_lt {m c : Nat} {e g : Int} (hm : 0 < m)
    (hlow : (m - slack m e / 4 : ℚ) * 2 ^ e < c * 10 ^ g)
    (hhigh : (c : ℚ) * 10 ^ g < (m + 1 / 2) * 2 ^ e) : readsBack m e c g = true := by
  rw [readsBack_iff hm]
  split
  · exact ⟨hlow.le, hhigh.le⟩
  · exact ⟨hlow, hhigh⟩

/-- What passes the test rounds to the float. -/
theorem roundsTo_of_readsBack {m c : Nat} {e g : Int} (hm : 0 < m)
    (h : readsBack m e c g = true) : RoundsTo m e (c * 10 ^ g / 2 ^ e) := by
  have hunit : (0 : ℚ) < 2 ^ e := zpow_pos two_pos _
  rw [readsBack_iff hm] at h
  have hslack : (slack m e : ℚ) / 4 = if m = 2 ^ 52 ∧ -1074 < e then 1 / 4 else 1 / 2 := by
    unfold slack
    split <;> norm_num
  rw [hslack] at h
  by_cases heven : m % 2 = 0
  · rw [if_pos heven, ← le_div_iff₀ hunit, ← div_le_iff₀ hunit] at h
    exact ⟨h.1, h.2, fun hodd => absurd hodd (by omega)⟩
  · rw [if_neg heven, ← lt_div_iff₀ hunit, ← div_lt_iff₀ hunit] at h
    have hbound : (m : ℚ) - 1 / 2 ≤ m - if m = 2 ^ 52 ∧ -1074 < e then 1 / 4 else 1 / 2 := by
      split <;> linarith
    exact ⟨h.1.le, h.2.le, fun _ => ⟨by linarith [h.1], h.2⟩⟩

/-! ## §4. The places. -/

/-- What is found on a grid passes the test. -/
theorem readsBack_of_onGrid {tie : Tie} {m : Nat} {e g : Int} {d : Digits}
    (h : onGrid tie m e g = some d) : readsBack m e d.digits d.exponent = true := by
  unfold onGrid at h
  dsimp only at h
  split at h
  next => cases h
  next hbelow _ =>
    injection h with h
    rw [← h]
    exact hbelow
  next _ habove =>
    injection h with h
    rw [← h]
    exact habove
  next hbelow habove =>
    split at h
    · injection h with h
      rw [← h]
      exact hbelow
    · split at h
      · injection h with h
        rw [← h]
        exact habove
      · -- both neighbours pass, whichever the tie rule takes
        cases tie with
        | up =>
          injection h with h
          rw [← h]
          exact habove
        | even =>
          injection h with h
          rw [← h]
          dsimp only
          split
          · exact hbelow
          · exact habove

/-- On a grid with a multiple that passes next to the float something is found. -/
theorem onGrid_isSome_of_neighbour {tie : Tie} {m : Nat} {e g : Int}
    (h : readsBack m e ((scaled m e (-g)).num / (scaled m e (-g)).den) g = true
      ∨ readsBack m e ((scaled m e (-g)).num / (scaled m e (-g)).den + 1) g = true) :
    (onGrid tie m e g).isSome = true := by
  unfold onGrid
  dsimp only
  split
  next hbelow habove =>
    rw [hbelow, habove] at h
    exact absurd h (by decide)
  next => rfl
  next => rfl
  next =>
    split
    · rfl
    · split
      · rfl
      · cases tie <;> rfl

/-- **With 17 places something is found**: multiples of the last of them are closer to
each other than the floats are. -/
theorem onGrid_isSome (tie : Tie) {m : Nat} {e : Int} (hm : 0 < m) (hlt : m < 2 ^ 53)
    (he : -1074 ≤ e) : (onGrid tie m e (magnitude m e - 17)).isSome = true := by
  obtain ⟨hlow, hhigh⟩ := magnitude_spec hm he
  obtain ⟨g, hg⟩ : ∃ g, g = magnitude m e - 17 := ⟨_, rfl⟩
  rw [← hg]
  have hunit : (0 : ℚ) < 2 ^ e := zpow_pos two_pos _
  have hten : (0 : ℚ) < 10 ^ g := zpow_pos (by norm_num) _
  -- a place of the float holds more than one step of the grid, and two in a power of two
  have hplaces : (10 : ℚ) ^ 16 * 10 ^ g ≤ m * 2 ^ e := by
    calc (10 : ℚ) ^ 16 * 10 ^ g = 10 ^ (magnitude m e - 1) := by
          rw [← zpow_natCast, ← zpow_add₀ (by norm_num)]
          congr 1
          omega
      _ ≤ m * 2 ^ e := hlow
  have hstep : (10 : ℚ) ^ g < 2 ^ e := by
    have hm' : (m : ℚ) < 2 ^ 53 := by exact_mod_cast hlt
    have : (m : ℚ) * 2 ^ e < 2 ^ 53 * 2 ^ e := mul_lt_mul_of_pos_right hm' hunit
    nlinarith
  -- the neighbours of the float on the grid
  apply onGrid_isSome_of_neighbour
  obtain ⟨c, hc⟩ : ∃ c, (scaled m e (-g)).num / (scaled m e (-g)).den = c := ⟨_, rfl⟩
  have hbelow : (c : ℚ) * 10 ^ g ≤ m * 2 ^ e := by
    rw [← le_scaled_iff, ← hc]
    exact Nat.div_mul_le_self _ _
  have habove : (m : ℚ) * 2 ^ e < (c + 1 : ℕ) * 10 ^ g := by
    rw [← not_le, ← le_scaled_iff, ← hc, not_le]
    exact (Nat.div_lt_iff_lt_mul (scaled_den_pos m e (-g))).1 (Nat.lt_succ_self _)
  have hgap : ((c + 1 : ℕ) : ℚ) * 10 ^ g = c * 10 ^ g + 10 ^ g := by
    push_cast
    ring
  rw [hc]
  by_cases hnear : (m : ℚ) * 2 ^ e - c * 10 ^ g < 10 ^ g / 2 ∧ slack m e = 2
  · -- the lower one is nearer, less than half a place away
    obtain ⟨hnear, hslack⟩ := hnear
    left
    apply readsBack_of_lt hm
    · rw [hslack]
      push_cast
      linarith
    · linarith
  · right
    have hslack : (0 : ℚ) ≤ slack m e := Nat.cast_nonneg _
    apply readsBack_of_lt hm
    · nlinarith
    · rw [hgap]
      by_cases htwo : slack m e = 2
      · have hfar : (10 : ℚ) ^ g / 2 ≤ m * 2 ^ e - c * 10 ^ g := by
          by_contra hlt
          exact hnear ⟨not_le.1 hlt, htwo⟩
        linarith
      · -- just above a power of two the upper one is less than half a place away
        have hpower : m = 2 ^ 52 := by
          by_contra hne
          exact htwo (if_neg fun h => hne h.1)
        rw [hpower] at hplaces hbelow ⊢
        push_cast at hplaces hbelow ⊢
        linarith

/-- **What is found reads back.** -/
theorem readsBack_found (tie : Tie) {m : Nat} {e : Int} (hm : 0 < m) (hlt : m < 2 ^ 53)
    (he : -1074 ≤ e) :
    ∃ d, ((List.range 17).findSome? fun (n : Nat) => onGrid tie m e (magnitude m e - (n + 1)))
        = some d ∧ readsBack m e d.digits d.exponent = true := by
  obtain ⟨d, hd⟩ : ∃ d, ((List.range 17).findSome? fun (n : Nat) =>
      onGrid tie m e (magnitude m e - (n + 1))) = some d := by
    rw [← Option.isSome_iff_exists, List.findSome?_isSome_iff]
    exact ⟨16, by decide, onGrid_isSome tie hm hlt he⟩
  obtain ⟨n, -, hn⟩ := List.exists_of_findSome?_eq_some hd
  exact ⟨d, hd, readsBack_of_onGrid hn⟩

/-! ## §5. The digits that are written. -/

/-- The value of a decimal. -/
def Digits.value (d : Digits) : ℚ :=
  d.digits * 10 ^ d.exponent

/-- Taking zeros off the end keeps the value. -/
theorem Digits.value_strip (fuel : Nat) (d : Digits) : (d.strip fuel).value = d.value := by
  induction fuel generalizing d with
  | zero => rfl
  | succ fuel ih =>
    rw [Digits.strip]
    split
    next hzero =>
      rw [ih]
      have hdigits : (d.digits : ℚ) = 10 * (d.digits / 10 : ℕ) := by
        exact_mod_cast (Nat.mul_div_cancel' (Nat.dvd_of_mod_eq_zero hzero.2)).symm
      rw [Digits.value, Digits.value, hdigits, zpow_add_one₀ (by norm_num)]
      ring
    next => rfl

/-- **The digits written round to the float.** -/
theorem shortest_rounds (tie : Tie) {m : Nat} {e : Int} (hm : 0 < m) (hlt : m < 2 ^ 53)
    (he : -1074 ≤ e) : RoundsTo m e ((shortest tie m e).value / 2 ^ e) := by
  obtain ⟨d, hfound, hreads⟩ := readsBack_found tie hm hlt he
  have hshortest : shortest tie m e = d.strip 18 := by
    unfold shortest
    dsimp only
    rw [hfound, Option.getD_some]
  rw [hshortest, Digits.value_strip]
  exact roundsTo_of_readsBack hm hreads

end HeatMeter.Decimal
