/-
  HeatMeter.Proofs.Decimal.ToFloat
  ────────────────────────────────
  **A DECIMAL IS READ AS THE FLOAT NEAREST TO IT.**

  A short decimal is one product or quotient of two floats that are exact, a mantissa
  below 2^53 and a power of ten up to 10^22, so it is rounded once.  Any other is
  computed on exact mantissas and rounded once; far beyond the range of floats the
  answer is given without computing.  All three ways have the same result:

      parts_toFloat    the parts of `toFloat m e` are those nearest to `m · 10^e`
-/
import HeatMeter.Decimal.Read
import HeatMeter.Proofs.Scalar.Order

namespace HeatMeter.FloatLaws

open Float.Model Float.Model.UnpackedFloat

/-! ## §1. Exact factors. -/

/-- The parts of a float that stands for a positive rational in range. -/
theorem parts_of_value {x : Float} {v : ℚ} (hx : parts x ≠ .notANumber)
    (hvalue : value (parts x) = v) (hpos : 0 < v) (htop : v < beyond) :
    ∃ m e hm, parts x = .finite .positive m e hm ∧ (m : ℚ) * 2 ^ e = v := by
  have hnonneg : 0 ≤ x := nonneg_iff.2 ⟨hx, hvalue ▸ hpos.le⟩
  rcases nonneg_shapes hnonneg with ⟨s, hparts⟩ | ⟨m, e, hm, hparts⟩ | hparts
  · rw [hparts, value] at hvalue
    exact absurd hvalue hpos.ne
  · rw [hparts, value, factor, one_mul] at hvalue
    exact ⟨m, e, hm, hparts, hvalue⟩
  · rw [hparts, value, factor, one_mul] at hvalue
    exact absurd hvalue htop.ne'

/-- A whole number below 2^53 is a float. -/
theorem parts_toUInt64_toFloat {m : Nat} (hm : 0 < m) (hlt : m < 2 ^ 53) :
    ∃ n f hn, parts m.toUInt64.toFloat = .finite .positive n f hn ∧ (n : ℚ) * 2 ^ f = m := by
  have hpos : (0 : ℚ) < m := by exact_mod_cast hm
  have hword : m.toUInt64.toNat = m := by
    rw [Nat.toUInt64, UInt64.toNat_ofNat']
    omega
  have hparts : parts m.toUInt64.toFloat = packed (nearestParts .positive m) := by
    show packed (UnpackedFloat.normalize Format.binary64 (m.toUInt64.toNat : Int) 0 .positive) = _
    rw [hword, normalize_eq, zpow_zero, mul_one, Int.cast_natCast, nearestSigned, if_pos hpos]
  have hexact : rounded m = m := by
    have hlaw := rounded_of_lt hm hlt (e := 0) (by decide)
    rwa [zpow_zero, mul_one] at hlaw
  have htop : (m : ℚ) < beyond := by
    have hlaw := finite_lt hlt (e := 0) (by decide)
    rwa [zpow_zero, mul_one] at hlaw
  obtain ⟨hnumber, hvalue⟩ := value_packed_nearest .positive hpos
  rw [closest_of_nonneg hpos.le, hexact, min_eq_left htop.le, factor, one_mul] at hvalue
  rw [← hparts] at hnumber hvalue
  exact parts_of_value hnumber hvalue hpos htop

/-- Whether parts are those of a natural number, decided on mantissa and exponent. -/
def standsFor (u : UnpackedFloat) (n : Nat) : Bool :=
  match u with
  | .finite .positive m e _ => m * 2 ^ e.toNat == n * 2 ^ (-e).toNat
  | _ => false

theorem finite_of_standsFor {u : UnpackedFloat} {n : Nat} (h : standsFor u n = true) :
    ∃ m e hm, u = .finite .positive m e hm ∧ (m : ℚ) * 2 ^ e = n := by
  cases u with
  | finite s m e hm =>
    cases s with
    | negative => cases h
    | positive =>
      refine ⟨m, e, hm, rfl, ?_⟩
      have hcast : (m : ℚ) * 2 ^ e.toNat = n * 2 ^ (-e).toNat := by
        exact_mod_cast (eq_of_beq h : m * 2 ^ e.toNat = n * 2 ^ (-e).toNat)
      have hsplit : (2 : ℚ) ^ e * 2 ^ (-e).toNat = 2 ^ e.toNat := by
        rw [← zpow_natCast, ← zpow_natCast, ← zpow_add₀ two_ne_zero]
        congr 1
        omega
      have hunit : (0 : ℚ) < 2 ^ (-e).toNat := pow_pos two_pos _
      apply mul_right_cancel₀ hunit.ne'
      rw [mul_assoc, hsplit, hcast]
  | _ => cases h

theorem standsFor_powerOfTen : ∀ i : Fin Float.exactlyRepresentablePowersOfTen.size,
    standsFor (parts Float.exactlyRepresentablePowersOfTen[i]) (10 ^ i.val) = true := by
  decide +kernel

/-- The table of powers of ten is exact. -/
theorem parts_powerOfTen {e : Nat} (h : e < Float.exactlyRepresentablePowersOfTen.size) :
    ∃ n f hn, parts Float.exactlyRepresentablePowersOfTen[e] = .finite .positive n f hn
      ∧ (n : ℚ) * 2 ^ f = (10 ^ e : ℕ) := by
  apply finite_of_standsFor
  exact standsFor_powerOfTen ⟨e, h⟩

/-! ## §2. Long decimals. -/

theorem representable_packed_nearest (s : Sign) {v : ℚ} (hv : 0 < v) :
    Representable (packed (nearestParts s v)) := by
  have hcanonical := canonical_nearestParts s hv
  cases hparts : nearestParts s v with
  | notANumber => trivial
  | zero t =>
    rw [packed_zero]
    trivial
  | infinity t =>
    rw [packed_infinity]
    trivial
  | finite t m e hm =>
    rw [hparts] at hcanonical
    rw [packed_of_canonical hcanonical]
    split
    next he => exact ⟨hcanonical, he⟩
    next => trivial

theorem infinity_of_value {u : UnpackedFloat} (hu : Representable u) (h : value u = beyond) :
    u = .infinity .positive := by
  have htop := beyond_pos
  cases u with
  | notANumber => exact absurd h htop.ne
  | zero s => exact absurd h htop.ne
  | infinity s =>
    cases s with
    | positive => rfl
    | negative =>
      rw [value, factor] at h
      linarith
  | finite s m e hm => exact absurd h (value_finite_ne_beyond hu)

/-- What is beyond the finite floats is rounded to the infinity. -/
theorem packed_nearest_of_large {v : ℚ} (hv : beyond ≤ v) :
    packed (nearestParts .positive v) = .infinity .positive := by
  have hpos := beyond_pos.trans_le hv
  have hmono := closest_mono hv
  rw [closest_beyond] at hmono
  have hclosest : closest v = beyond := (closest_le_beyond v).antisymm hmono
  apply infinity_of_value (representable_packed_nearest .positive hpos)
  rw [(value_packed_nearest .positive hpos).2, hclosest, factor, one_mul]

/-- What is below half of the smallest float is rounded to zero. -/
theorem nearest_of_small {v : ℚ} (hv : 0 < v) (hsmall : v < 2 ^ (-1075 : ℤ)) :
    nearestParts .positive v = .zero .positive := by
  have hplace : place v = -1074 := by
    apply le_antisymm _ (place_ge v)
    apply place_le_of_lt hv le_rfl
    exact hsmall.trans_le (zpow_le_zpow_right₀ one_le_two (by decide))
  have hunit : (0 : ℚ) < 2 ^ (-1074 : ℤ) := zpow_pos two_pos _
  have hhalf : v / 2 ^ (-1074 : ℤ) ≤ 1 / 2 := by
    rw [div_le_iff₀ hunit]
    have hsplit : (2 : ℚ) ^ (-1075 : ℤ) = 1 / 2 * 2 ^ (-1074 : ℤ) := by
      rw [show (-1075 : ℤ) = -1074 - 1 by decide, zpow_sub_one₀ two_ne_zero]
      ring
    exact hsplit ▸ hsmall.le
  have hdigits : digits v = 0 := by
    rw [digits, hplace]
    have hnonneg : 0 ≤ v / 2 ^ (-1074 : ℤ) := div_nonneg hv.le hunit.le
    apply nearest_eq hnonneg
    · rw [Nat.cast_zero]
      linarith
    · rwa [Nat.cast_zero, zero_add]
    · intro hodd
      exact absurd hodd (by decide)
  rw [nearestParts, dif_pos hdigits]

theorem two_zpow_le_ten {n : ℕ} : (2 : ℚ) ^ n ≤ 10 ^ n :=
  pow_le_pow_left₀ two_pos.le (by norm_num) n

/-- **The exact way, with its shortcuts far beyond the range.** -/
theorem packed_ofScientific {m : Nat} (hm : 0 < m) (e : Int) :
    packed (UnpackedFloat.ofScientific Format.binary64 m e)
      = packed (nearestParts .positive (m * 10 ^ e)) := by
  have hm' : (1 : ℚ) ≤ m := by exact_mod_cast hm
  have hbits : (2 : Int) ^ Format.binary64.exponentBits = 2048 := rfl
  unfold UnpackedFloat.ofScientific
  rw [dif_neg hm.ne', hbits]
  by_cases hhuge : e > 2048
  · have hlarge : beyond ≤ m * 10 ^ e := by
      calc beyond ≤ 10 ^ 1024 := two_zpow_le_ten
        _ = 10 ^ ((1024 : ℕ) : ℤ) := (zpow_natCast _ _).symm
        _ ≤ 10 ^ e := zpow_le_zpow_right₀ (by norm_num) (by omega)
        _ ≤ m * 10 ^ e := le_mul_of_one_le_left (zpow_nonneg (by norm_num) _) hm'
    rw [if_pos hhuge, packed_infinity, packed_nearest_of_large hlarge]
  rw [if_neg hhuge]
  by_cases htiny : e < -(2048 + (m.log2 : Int))
  · have hmantissa : (m : ℚ) ≤ 2 ^ (m.log2 + 1) := by
      exact_mod_cast (Nat.lt_log2_self (n := m)).le
    have hpower : (10 : ℚ) ^ e ≤ 2 ^ e := by
      rw [show e = -(((-e).toNat : ℕ) : ℤ) by omega, zpow_neg, zpow_neg, zpow_natCast,
        zpow_natCast]
      exact inv_anti₀ (pow_pos two_pos _) two_zpow_le_ten
    have hsmall : m * 10 ^ e < (2 : ℚ) ^ (-1075 : ℤ) := by
      calc (m : ℚ) * 10 ^ e ≤ 2 ^ (m.log2 + 1) * 2 ^ e :=
            mul_le_mul hmantissa hpower (zpow_nonneg (by norm_num) _) (by positivity)
        _ = 2 ^ (((m.log2 + 1 : ℕ) : ℤ) + e) := by rw [zpow_add₀ two_ne_zero, zpow_natCast]
        _ < 2 ^ (-1075 : ℤ) := zpow_lt_zpow_right₀ one_lt_two (by push_cast; omega)
    have hpos : (0 : ℚ) < m * 10 ^ e := mul_pos (by linarith) (zpow_pos (by norm_num) _)
    rw [if_pos htiny, nearest_of_small hpos hsmall]
  rw [if_neg htiny]
  by_cases he : 0 ≤ e
  · -- the mantissa with 53 more places, times a power of ten
    have hshift : (0 : ℕ) < m <<< Format.binary64.mantissaBits := by
      rw [Nat.shiftLeft_eq]
      exact Nat.mul_pos hm (Nat.two_pow_pos _)
    have hten : 0 < 10 ^ e.toNat := Nat.pow_pos (by decide)
    have hvalue : ((m <<< 53 : ℕ) : ℚ) * 2 ^ (-((53 : ℕ) : ℤ)) * ((10 ^ e.toNat : ℕ) * 2 ^ (0 : ℤ))
        = m * 10 ^ e := by
      have hunit : ((2 ^ 53 : ℕ) : ℚ) * 2 ^ (-((53 : ℕ) : ℤ)) = 1 := by
        rw [zpow_neg, zpow_natCast, Nat.cast_pow, Nat.cast_ofNat]
        exact mul_inv_cancel₀ (pow_ne_zero _ two_ne_zero)
      have hcast : ((10 ^ e.toNat : ℕ) : ℚ) = 10 ^ e := by
        rw [Nat.cast_pow, Nat.cast_ofNat, ← zpow_natCast, Int.toNat_of_nonneg he]
      rw [Nat.shiftLeft_eq, hcast, zpow_zero, mul_one, Nat.cast_mul, mul_assoc (m : ℚ), hunit,
        mul_one]
    rw [if_pos he, mul_finite .positive .positive hshift hten]
    · exact congrArg (fun v => packed (nearestParts .positive v)) hvalue
    · apply le_place_of_large
      rw [Nat.shiftLeft_eq, Nat.mul_comm m, Nat.mul_assoc]
      exact (Nat.pow_le_pow_right (by decide) (by decide)).trans
        (Nat.le_mul_of_pos_right _ (Nat.mul_pos hm hten))
  · have hten : 0 < 10 ^ (-e).toNat := Nat.pow_pos (by decide)
    have hvalue : (m : ℚ) * 2 ^ (0 : ℤ) / ((10 ^ (-e).toNat : ℕ) * 2 ^ (0 : ℤ)) = m * 10 ^ e := by
      have hcast : ((10 ^ (-e).toNat : ℕ) : ℚ) = (10 ^ e)⁻¹ := by
        rw [Nat.cast_pow, Nat.cast_ofNat, ← zpow_natCast, Int.toNat_of_nonneg (by omega), zpow_neg]
      rw [hcast, zpow_zero, mul_one, mul_one, div_inv_eq_mul]
    rw [if_neg he, div_finite .positive .positive hm hten]
    exact congrArg (fun v => packed (nearestParts .positive v)) hvalue

/-! ## §3. Decimals. -/

theorem parts_ofScientific {m : Nat} (hm : 0 < m) (negative : Bool) (e : Nat) :
    parts (Float.ofScientific m negative e)
      = packed (nearestParts .positive
          (m * 10 ^ (if negative then -(e : ℤ) else (e : ℤ)))) := by
  unfold Float.ofScientific
  split
  next hshort =>
    obtain ⟨n, f, hn, hparts, hvalue⟩ := parts_toUInt64_toFloat hm hshort.1
    obtain ⟨p, g, hp, htable, hten⟩ := parts_powerOfTen (by
      show e < 23
      exact Nat.lt_succ_of_le hshort.2)
    dsimp only
    cases negative with
    | true =>
      rw [if_pos rfl, if_pos rfl, parts_div_finite hparts htable, hvalue, hten, zpow_neg,
        zpow_natCast, ← div_eq_mul_inv]
      push_cast
      rfl
    | false =>
      rw [if_neg (by decide), if_neg (by decide), parts_mul_finite hparts htable, hvalue, hten,
        zpow_natCast]
      push_cast
      rfl
  next =>
    show packed (UnpackedFloat.ofScientific Format.binary64 m
      (if negative then Int.negOfNat e else Int.ofNat e)) = _
    rw [packed_ofScientific hm]
    cases negative with
    | true => rw [if_pos rfl, if_pos rfl, Int.negOfNat_eq, Int.ofNat_eq_natCast]
    | false => rw [if_neg (by decide), if_neg (by decide), Int.ofNat_eq_natCast]

/-- **A decimal is read as the float nearest to it.** -/
theorem parts_toFloat {m : Nat} (hm : 0 < m) (e : Int) :
    parts (Decimal.toFloat m e) = packed (nearestParts .positive (m * 10 ^ e)) := by
  unfold Decimal.toFloat
  by_cases he : 0 ≤ e
  · rw [if_pos he, parts_ofScientific hm, if_neg (by decide), Int.toNat_of_nonneg he]
  · rw [if_neg he, parts_ofScientific hm, if_pos rfl, Int.toNat_of_nonneg (by omega), neg_neg]

/-! ## §4. Whole numbers. -/

theorem parts_neg (x : Float) : parts (-x) = packed (UnpackedFloat.neg (parts x)) :=
  rfl

theorem isFinite_neg {x : Float} (h : x.isFinite = true) : (-x).isFinite = true := by
  have hfinite : (parts x).isFinite = true := h
  have hrep := representable_parts x
  show (parts (-x)).isFinite = true
  rw [parts_neg]
  cases hparts : parts x with
  | notANumber =>
    rw [hparts] at hfinite
    cases hfinite
  | infinity s =>
    rw [hparts] at hfinite
    cases hfinite
  | zero s =>
    rw [UnpackedFloat.neg, packed_zero]
    rfl
  | finite s m e hm =>
    rw [hparts] at hrep
    have hneg : Representable (.finite (-s) m e hm) := hrep
    rw [UnpackedFloat.neg, packed_of_representable hneg]
    rfl

theorem isFinite_ofNat {n : Nat} (hn : n ≤ 2 ^ 64) : (Float.ofNat n).isFinite = true := by
  rcases Nat.eq_zero_or_pos n with rfl | hpos
  · rfl
  have hpos' : (0 : ℚ) < n := by exact_mod_cast hpos
  have hparts : parts (Float.ofNat n) = packed (nearestParts .positive n) := by
    have hlaw := parts_ofScientific hpos false 0
    rw [if_neg (by decide), Nat.cast_zero, zpow_zero, mul_one] at hlaw
    exact hlaw
  have hbound : rounded n ≤ 2 ^ (64 : ℤ) := by
    have hlaw := rounded_of_lt Nat.one_pos (by decide) (e := 64) (by decide)
    rw [Nat.cast_one, one_mul] at hlaw
    rw [← hlaw]
    apply rounded_mono
    exact_mod_cast hn
  have htop : (2 : ℚ) ^ (64 : ℤ) < beyond := by
    have hlaw := finite_lt (m := 1) (by decide) (e := 64) (by decide)
    rwa [Nat.cast_one, one_mul] at hlaw
  obtain ⟨hnumber, hvalue⟩ := value_packed_nearest .positive hpos'
  rw [closest_of_nonneg hpos'.le, factor, one_mul] at hvalue
  rw [← hparts] at hnumber hvalue
  have hlt : value (parts (Float.ofNat n)) < beyond :=
    hvalue ▸ (min_le_left _ _).trans_lt (hbound.trans_lt htop)
  have hge : 0 ≤ Float.ofNat n := by
    refine nonneg_iff.2 ⟨hnumber, ?_⟩
    rw [hvalue]
    exact le_min (rounded_nonneg _) beyond_pos.le
  exact (addable_of_nonneg hge).isFinite_of_lt hlt

/-- A whole number of 64 bits is read as a finite float. -/
theorem isFinite_ofInt {n : Int} (h : n.natAbs ≤ 2 ^ 64) : (Float.ofInt n).isFinite = true := by
  cases n with
  | ofNat n => exact isFinite_ofNat h
  | negSucc n => exact isFinite_neg (isFinite_ofNat h)

end HeatMeter.FloatLaws
