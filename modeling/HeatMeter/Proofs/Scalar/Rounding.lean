/-
  HeatMeter.Proofs.Scalar.Rounding
  ────────────────────────────────
  **THE FLOAT NEAREST TO A RATIONAL, AS RATIONAL ARITHMETIC.**

  A float of the size of `v` is a multiple of a power of two, the value of its last
  binary place; a result is rounded to the nearest such multiple.

      nearest x    the whole number nearest to `x`, a half going to the even one
      place v      the exponent of the last place: 53 places from the first digit of
                   `v`, but none below 2^-1074
      rounded v    the multiple of `2^place v` nearest to `v`

  Rounding keeps the order of what it rounds, `rounded_mono`, and keeps every number
  of 53 binary places, `rounded_of_lt`.  These two are all that the order of sums
  rests on.  `rounded_eq` names the numbers that round to a given one.
-/
import Mathlib

namespace HeatMeter.FloatLaws

/-! ## §1. The nearest whole number. -/

/-- The whole number nearest to `x`, a half going to the even one. -/
def nearest (x : ℚ) : ℕ :=
  if x - ⌊x⌋₊ < 1 / 2 then ⌊x⌋₊
  else if x - ⌊x⌋₊ = 1 / 2 then ⌊x⌋₊ + ⌊x⌋₊ % 2
  else ⌊x⌋₊ + 1

theorem floor_le_nearest (x : ℚ) : ⌊x⌋₊ ≤ nearest x := by
  unfold nearest
  split
  · exact Nat.le_refl _
  · split
    · exact Nat.le_add_right _ _
    · exact Nat.le_succ _

theorem nearest_le_floor_succ (x : ℚ) : nearest x ≤ ⌊x⌋₊ + 1 := by
  unfold nearest
  split
  · omega
  · split <;> omega

theorem nearest_natCast (n : ℕ) : nearest n = n := by
  unfold nearest
  rw [Nat.floor_natCast, sub_self, if_pos (by norm_num)]

/-- **Rounding to whole numbers keeps the order.** -/
theorem nearest_mono {x y : ℚ} (h : x ≤ y) : nearest x ≤ nearest y := by
  rcases Nat.lt_or_eq_of_le (Nat.floor_mono h) with hlt | heq
  · -- a whole number lies between the two
    calc nearest x ≤ ⌊x⌋₊ + 1 := nearest_le_floor_succ x
      _ ≤ ⌊y⌋₊ := hlt
      _ ≤ nearest y := floor_le_nearest y
  · -- one whole part, and the fraction grows
    have hfrac : x - ⌊x⌋₊ ≤ y - ⌊y⌋₊ := by
      rw [heq]
      linarith
    unfold nearest
    rw [← heq] at hfrac ⊢
    by_cases hx : x - ⌊x⌋₊ < 1 / 2
    · rw [if_pos hx]
      split
      · omega
      · split <;> omega
    · have hy : ¬ y - ⌊x⌋₊ < 1 / 2 := by linarith
      rw [if_neg hx, if_neg hy]
      by_cases hhalf : x - ⌊x⌋₊ = 1 / 2
      · rw [if_pos hhalf]
        split <;> omega
      · have hy' : y - ⌊x⌋₊ ≠ 1 / 2 := by
          intro heven
          apply hhalf
          linarith
        rw [if_neg hhalf, if_neg hy']

theorem nearest_le_of_le {x : ℚ} {n : ℕ} (h : x ≤ n) : nearest x ≤ n := by
  have hmono := nearest_mono h
  rwa [nearest_natCast] at hmono

theorem le_nearest_of_le {x : ℚ} {n : ℕ} (h : n ≤ x) : n ≤ nearest x := by
  have hmono := nearest_mono h
  rwa [nearest_natCast] at hmono

/-- A number is rounded to `n` from less than a half away, and to an even `n` from a
half away too. -/
theorem nearest_eq {x : ℚ} {n : ℕ} (hx : 0 ≤ x) (hlow : n ≤ x + 1 / 2)
    (hhigh : x ≤ n + 1 / 2) (hodd : n % 2 = 1 → n < x + 1 / 2 ∧ x < n + 1 / 2) :
    nearest x = n := by
  by_cases hfloor : (n : ℚ) ≤ x
  · -- from above: `n` is the whole part
    have hpart : ⌊x⌋₊ = n := (Nat.floor_eq_iff hx).2 ⟨hfloor, by linarith⟩
    unfold nearest
    rw [hpart]
    by_cases hless : x - n < 1 / 2
    · rw [if_pos hless]
    · have hhalf : x - n = 1 / 2 := by linarith
      rw [if_neg hless, if_pos hhalf]
      rcases Nat.mod_two_eq_zero_or_one n with heven | hone
      · omega
      · linarith [(hodd hone).2]
  · -- from below: the whole part is the number before `n`
    obtain ⟨k, rfl⟩ : ∃ k, n = k + 1 := by
      apply Nat.exists_eq_succ_of_ne_zero
      rintro rfl
      exact hfloor (by simpa using hx)
    push_cast at hlow hhigh hodd hfloor
    have hpart : ⌊x⌋₊ = k := (Nat.floor_eq_iff hx).2 ⟨by linarith, by linarith⟩
    unfold nearest
    rw [hpart, if_neg (by linarith)]
    by_cases hhalf : x - k = 1 / 2
    · rw [if_pos hhalf]
      rcases Nat.mod_two_eq_zero_or_one (k + 1) with heven | hone
      · omega
      · linarith [(hodd hone).1]
    · rw [if_neg hhalf]

/-! ## §2. The last binary place. -/

/-- The exponent of the last place of a float of the size of `v`. -/
def place (v : ℚ) : ℤ :=
  max (Int.log 2 v - 52) (-1074)

theorem place_ge (v : ℚ) : -1074 ≤ place v :=
  le_max_right _ _

/-- A number has 53 places at most. -/
theorem lt_place (v : ℚ) : v < 2 ^ (53 + place v) := by
  calc v < 2 ^ (Int.log 2 v + 1) := by exact_mod_cast Int.lt_zpow_succ_log_self one_lt_two v
    _ ≤ 2 ^ (53 + place v) := by
      apply zpow_le_zpow_right₀ one_le_two
      have := le_max_left (Int.log 2 v - 52) (-1074)
      unfold place
      omega

/-- Above the smallest numbers all 53 places are used. -/
theorem place_le {v : ℚ} (hv : 0 < v) (h : place v ≠ -1074) : 2 ^ (52 + place v) ≤ v := by
  have hlog : Int.log 2 v = 52 + place v := by
    unfold place at h ⊢
    omega
  rw [← hlog]
  exact_mod_cast Int.zpow_log_le_self one_lt_two hv

/-- **The last place is named by the size.** -/
theorem place_eq {v : ℚ} {q : ℤ} (hv : 0 < v) (hq : -1074 ≤ q) (hlt : v < 2 ^ (53 + q))
    (hge : q = -1074 ∨ 2 ^ (52 + q) ≤ v) : place v = q := by
  have hupper : Int.log 2 v < 53 + q :=
    (Int.lt_zpow_iff_log_lt one_lt_two hv).1 (by exact_mod_cast hlt)
  unfold place
  rcases hge with rfl | hge
  · omega
  · have hlower : 52 + q ≤ Int.log 2 v :=
      (Int.zpow_le_iff_le_log one_lt_two hv).1 (by exact_mod_cast hge)
    omega

theorem place_mono {v w : ℚ} (hv : 0 < v) (h : v ≤ w) : place v ≤ place w := by
  have hlog : Int.log 2 v ≤ Int.log 2 w := Int.log_mono_right hv h
  unfold place
  omega

/-! ## §3. Rounding. -/

/-- The number of last places in `v`, rounded. -/
def digits (v : ℚ) : ℕ :=
  nearest (v / 2 ^ place v)

/-- The float nearest to `v`, were there no largest one. -/
def rounded (v : ℚ) : ℚ :=
  digits v * 2 ^ place v

theorem digits_le (v : ℚ) : digits v ≤ 2 ^ 53 := by
  apply nearest_le_of_le
  rw [div_le_iff₀ (zpow_pos two_pos _)]
  have hlt := lt_place v
  rw [zpow_add₀ two_ne_zero] at hlt
  push_cast
  exact_mod_cast hlt.le

theorem le_digits {v : ℚ} (hv : 0 < v) (h : place v ≠ -1074) : 2 ^ 52 ≤ digits v := by
  apply le_nearest_of_le
  rw [le_div_iff₀ (zpow_pos two_pos _)]
  have hge := place_le hv h
  rw [zpow_add₀ two_ne_zero] at hge
  push_cast
  exact_mod_cast hge

/-- A multiple of a place is one of every lower place. -/
theorem multiple_of_le (n : ℕ) {q e : ℤ} (h : q ≤ e) :
    (n : ℚ) * 2 ^ e = (n * 2 ^ (e - q).toNat : ℕ) * 2 ^ q := by
  have hsplit : (2 : ℚ) ^ e = 2 ^ (e - q).toNat * 2 ^ q := by
    rw [← zpow_natCast, ← zpow_add₀ two_ne_zero, Int.toNat_of_nonneg (by omega), Int.sub_add_cancel]
  rw [hsplit]
  push_cast
  ring

/-- What lies below a multiple of the last place is rounded to no more than it. -/
theorem rounded_le {v : ℚ} {n : ℕ} {e : ℤ} (he : place v ≤ e) (h : v ≤ n * 2 ^ e) :
    rounded v ≤ n * 2 ^ e := by
  rw [multiple_of_le n he] at h ⊢
  unfold rounded
  apply mul_le_mul_of_nonneg_right _ (zpow_nonneg two_pos.le _)
  exact_mod_cast nearest_le_of_le ((div_le_iff₀ (zpow_pos two_pos _)).2 h)

/-- What lies above a multiple of the last place is rounded to no less than it. -/
theorem le_rounded {v : ℚ} {n : ℕ} {e : ℤ} (he : place v ≤ e) (h : n * 2 ^ e ≤ v) :
    n * 2 ^ e ≤ rounded v := by
  rw [multiple_of_le n he] at h ⊢
  unfold rounded
  apply mul_le_mul_of_nonneg_right _ (zpow_nonneg two_pos.le _)
  exact_mod_cast le_nearest_of_le ((le_div_iff₀ (zpow_pos two_pos _)).2 h)

theorem rounded_nonneg (v : ℚ) : 0 ≤ rounded v :=
  mul_nonneg (Nat.cast_nonneg _) (zpow_nonneg two_pos.le _)

/-- What is not above zero is rounded to zero. -/
theorem rounded_of_nonpos {v : ℚ} (h : v ≤ 0) : rounded v = 0 := by
  have hscaled : v / 2 ^ place v ≤ ((0 : ℕ) : ℚ) := by
    rw [Nat.cast_zero]
    exact div_nonpos_of_nonpos_of_nonneg h (zpow_nonneg two_pos.le _)
  have hdigits : digits v = 0 := Nat.le_zero.1 (nearest_le_of_le hscaled)
  rw [rounded, hdigits, Nat.cast_zero, zero_mul]

/-- **Rounding keeps the order.** -/
theorem rounded_mono {v w : ℚ} (h : v ≤ w) : rounded v ≤ rounded w := by
  by_cases hv : 0 < v
  · rcases lt_or_eq_of_le (place_mono hv h) with hlt | heq
    · -- a power of two lies between the two, and both places divide it
      have hnot : place w ≠ -1074 := by
        have := place_ge v
        omega
      have hupper : v ≤ (1 : ℕ) * 2 ^ (52 + place w) := by
        calc v ≤ 2 ^ (53 + place v) := (lt_place v).le
          _ ≤ 2 ^ (52 + place w) := zpow_le_zpow_right₀ one_le_two (by omega)
          _ = (1 : ℕ) * 2 ^ (52 + place w) := by rw [Nat.cast_one, one_mul]
      have hlower : (1 : ℕ) * 2 ^ (52 + place w) ≤ w := by
        rw [Nat.cast_one, one_mul]
        exact place_le (lt_of_lt_of_le hv h) hnot
      exact (rounded_le (by omega) hupper).trans (le_rounded (by omega) hlower)
    · unfold rounded digits
      rw [heq]
      apply mul_le_mul_of_nonneg_right _ (zpow_nonneg two_pos.le _)
      exact_mod_cast nearest_mono (div_le_div_of_nonneg_right h (zpow_nonneg two_pos.le _))
  · rw [rounded_of_nonpos (not_lt.1 hv)]
    exact rounded_nonneg w

theorem place_le_of_lt {v : ℚ} {e : ℤ} (hv : 0 < v) (he : -1074 ≤ e) (h : v < 2 ^ (53 + e)) :
    place v ≤ e := by
  by_contra hgt
  have hge := place_le hv (by omega)
  have hpow : (2 : ℚ) ^ (53 + e) ≤ 2 ^ (52 + place v) :=
    zpow_le_zpow_right₀ one_le_two (by omega)
  linarith

/-- **Numbers of 53 places are kept.** -/
theorem rounded_of_lt {m : ℕ} {e : ℤ} (hpos : 0 < m) (hm : m < 2 ^ 53) (he : -1074 ≤ e) :
    rounded (m * 2 ^ e) = m * 2 ^ e := by
  have hv : (0 : ℚ) < m * 2 ^ e := mul_pos (by exact_mod_cast hpos) (zpow_pos two_pos _)
  have hlt : (m : ℚ) * 2 ^ e < 2 ^ (53 + e) := by
    rw [zpow_add₀ two_ne_zero]
    exact mul_lt_mul_of_pos_right (by exact_mod_cast hm) (zpow_pos two_pos _)
  have hplace := place_le_of_lt hv he hlt
  exact le_antisymm (rounded_le hplace le_rfl) (le_rounded hplace le_rfl)

/-- What is rounded to `m · 2^e`, in places of `2^e`: half a place up and down, but a
quarter down from a power of two, below which numbers are twice as close; the ends only
where `m` is even. -/
structure RoundsTo (m : ℕ) (e : ℤ) (u : ℚ) : Prop where
  low : m - (if m = 2 ^ 52 ∧ -1074 < e then 1 / 4 else 1 / 2) ≤ u
  high : u ≤ m + 1 / 2
  odd : m % 2 = 1 → m < u + 1 / 2 ∧ u < m + 1 / 2

theorem two_zpow_add (a e : ℤ) (n : ℕ) (h : a = n) : (2 : ℚ) ^ (a + e) = (2 ^ n : ℕ) * 2 ^ e := by
  rw [zpow_add₀ two_ne_zero, h, zpow_natCast]
  push_cast
  rfl

/-- **The numbers that round to a float.** -/
theorem rounded_eq {m : ℕ} {e : ℤ} {u : ℚ} (hpos : 0 < m) (hm : m < 2 ^ 53) (he : -1074 ≤ e)
    (hnormal : e = -1074 ∨ 2 ^ 52 ≤ m) (h : RoundsTo m e u) :
    rounded (u * 2 ^ e) = m * 2 ^ e := by
  have hunit : (0 : ℚ) < 2 ^ e := zpow_pos two_pos _
  have hm1 : (1 : ℚ) ≤ m := by exact_mod_cast hpos
  have hm2 : (m : ℚ) + 1 ≤ (2 ^ 53 : ℕ) := by exact_mod_cast hm
  have hlow := h.low
  have hhigh := h.high
  by_cases hbinade : (m = 2 ^ 52 ∧ -1074 < e) ∧ u < m
  · -- just below a power of two the last place is one lower
    obtain ⟨hpower, hbelow⟩ := hbinade
    rw [if_pos hpower] at hlow
    obtain ⟨rfl, hlarge⟩ := hpower
    have hplace : place (u * 2 ^ e) = e - 1 := by
      apply place_eq (mul_pos (by linarith) hunit) (by omega)
      · rw [show 53 + (e - 1) = 52 + e by omega, two_zpow_add 52 e 52 rfl]
        exact mul_lt_mul_of_pos_right hbelow hunit
      · right
        rw [show 52 + (e - 1) = 51 + e by omega, two_zpow_add 51 e 51 rfl]
        apply mul_le_mul_of_nonneg_right _ hunit.le
        push_cast at hlow ⊢
        linarith
    have hscaled : u * 2 ^ e / 2 ^ (e - 1) = 2 * u := by
      rw [zpow_sub_one₀ two_ne_zero]
      field_simp
    have hdigits : nearest (2 * u) = 2 ^ 53 := by
      push_cast at hlow hbelow
      apply nearest_eq
      · linarith
      · push_cast
        linarith
      · push_cast
        linarith
      · intro hone
        exact absurd hone (by decide)
    unfold rounded digits
    rw [hplace, hscaled, hdigits, zpow_sub_one₀ two_ne_zero]
    push_cast
    ring
  · have hbelow : (m : ℚ) - 1 / 2 ≤ u := by
      split at hlow <;> linarith
    have hplace : place (u * 2 ^ e) = e := by
      apply place_eq (mul_pos (by linarith) hunit) he
      · rw [two_zpow_add 53 e 53 rfl]
        exact mul_lt_mul_of_pos_right (by linarith) hunit
      · rcases hnormal with hleast | hlarge
        · exact .inl hleast
        · by_cases hleast : e = -1074
          · exact .inl hleast
          right
          rw [two_zpow_add 52 e 52 rfl]
          apply mul_le_mul_of_nonneg_right _ hunit.le
          rcases Nat.lt_or_eq_of_le hlarge with hmore | heq
          · have : ((2 ^ 52 : ℕ) : ℚ) + 1 ≤ m := by exact_mod_cast hmore
            linarith
          · rw [heq]
            by_contra hlt
            exact hbinade ⟨⟨heq.symm, by omega⟩, lt_of_not_ge hlt⟩
    have hscaled : u * 2 ^ e / 2 ^ e = u := by
      rw [mul_div_assoc, div_self hunit.ne', mul_one]
    unfold rounded digits
    rw [hplace, hscaled, nearest_eq (by linarith) (by linarith) hhigh h.odd]

end HeatMeter.FloatLaws
