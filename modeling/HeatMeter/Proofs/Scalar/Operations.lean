/-
  HeatMeter.Proofs.Scalar.Operations
  ──────────────────────────────────
  **SUMS, PRODUCTS AND QUOTIENTS ARE THE NEAREST FLOATS.**

  Each operation on finite floats is computed on mantissas and exponents and rounded
  once.  The exact result, a rational, is all that its parts depend on:

      parts_mul_finite    the parts of a product of finite floats
      parts_div_finite    the parts of a quotient of finite floats
      add_finite          the sum of finite floats, before it is packed
-/
import HeatMeter.Proofs.Scalar.Nearest

namespace HeatMeter.FloatLaws

open Float.Model Float.Model.UnpackedFloat

/-! ## §1. Products and quotients. -/

/-- An exponent is not above the last place of a number with 53 places above it. -/
theorem le_place {v : ℚ} {q : ℤ} (h : q ≤ -1074 ∨ 2 ^ (52 + q) ≤ v) : q ≤ place v := by
  rcases h with hleast | hge
  · exact hleast.trans (place_ge v)
  · by_contra hlt
    have hpow : (2 : ℚ) ^ (53 + place v) ≤ 2 ^ (52 + q) :=
      zpow_le_zpow_right₀ one_le_two (by omega)
    linarith [lt_place v]

theorem le_place_of_large {k : Nat} (q : Int) (h : 2 ^ 52 ≤ k) : q ≤ place (k * 2 ^ q) := by
  apply le_place
  right
  rw [two_zpow_add 52 q 52 rfl]
  apply mul_le_mul_of_nonneg_right _ (zpow_nonneg two_pos.le _)
  exact_mod_cast h

theorem mul_finite (s t : Sign) {m n : Nat} {e f : Int} (hm : 0 < m) (hn : 0 < n)
    (h : e + f ≤ place ((m * n : ℕ) * 2 ^ (e + f))) :
    UnpackedFloat.mul Format.binary64 (.finite s m e hm) (.finite t n f hn)
      = nearestParts (s * t) ((m * 2 ^ e) * (n * 2 ^ f)) := by
  have hpos : (0 : ℚ) < (m * n : ℕ) := by exact_mod_cast Nat.mul_pos hm hn
  have hvalue : ((m * n : ℕ) : ℚ) * 2 ^ (e + f) = (m * 2 ^ e) * (n * 2 ^ f) := by
    rw [zpow_add₀ two_ne_zero]
    push_cast
    ring
  rw [← hvalue]
  exact roundWithAccuracy_eq (s * t) (describes_exact (m * n)) hpos h

/-- **A product of finite floats is the nearest one.** -/
theorem parts_mul_finite {x y : Float} {s t : Sign} {m n : Nat} {e f : Int} {hm : 0 < m}
    {hn : 0 < n} (hx : parts x = .finite s m e hm) (hy : parts y = .finite t n f hn) :
    parts (x * y) = packed (nearestParts (s * t) ((m * 2 ^ e) * (n * 2 ^ f))) := by
  obtain ⟨⟨-, -, hnormalx⟩, -⟩ := canonical_parts hx
  obtain ⟨⟨-, -, hnormaly⟩, -⟩ := canonical_parts hy
  rw [parts_mul, hx, hy, mul_finite]
  -- two small numbers lie below the lowest place, and else there are 53 places
  rcases hnormalx with hleastx | hlargex
  · rcases hnormaly with hleasty | hlargey
    · exact le_place (.inl (by omega))
    · exact le_place_of_large _ (hlargey.trans (Nat.le_mul_of_pos_left n hm))
  · exact le_place_of_large _ (hlargex.trans (Nat.le_mul_of_pos_right m hn))

theorem div_finite (s t : Sign) {m n : Nat} {e f : Int} (hm : 0 < m) (hn : 0 < n) :
    UnpackedFloat.div Format.binary64 (.finite s m e hm) (.finite t n f hn)
      = nearestParts (s / t) ((m * 2 ^ e) / (n * 2 ^ f)) := by
  have hm' : (0 : ℚ) < m := by exact_mod_cast hm
  have hn' : (0 : ℚ) < n := by exact_mod_cast hn
  -- the dividend is shifted so that the quotient reaches down to `q`
  obtain ⟨q, hq⟩ : ∃ q, q = min (e - f)
      (Format.binary64.targetExponent (totalExponent m e - totalExponent n f)) := ⟨_, rfl⟩
  obtain ⟨k, hk⟩ : ∃ k, k = (e - f - q).toNat := ⟨_, rfl⟩
  have hle : q ≤ e - f := hq ▸ Int.min_le_left _ _
  have hvalue : (((m <<< k : ℕ) : ℚ) / n) * 2 ^ q = (m * 2 ^ e) / (n * 2 ^ f) := by
    have hpow : (2 : ℚ) ^ k * 2 ^ q = 2 ^ e / 2 ^ f := by
      rw [← zpow_natCast, ← zpow_add₀ two_ne_zero, ← zpow_sub₀ two_ne_zero]
      congr 1
      omega
    rw [Nat.shiftLeft_eq]
    push_cast
    rw [mul_div_mul_comm, ← hpow]
    ring
  have hround : roundWithAccuracy Format.binary64 (s / t) ((m <<< k) / n) q
      (accuracyOfFraction ((m <<< k) % n) n)
        = nearestParts (s / t) (((m <<< k : ℕ) : ℚ) / n * 2 ^ q) := by
    apply roundWithAccuracy_eq (s / t) (describes_div (m <<< k) hn)
    · apply div_pos _ hn'
      rw [Nat.shiftLeft_eq]
      exact_mod_cast Nat.mul_pos hm (Nat.two_pow_pos k)
    · -- a quotient has at most one place less than the exponents say
      rw [hvalue]
      apply le_place
      by_cases hleast : (m.log2 + 1 + e) - (n.log2 + 1 + f) - 53 ≤ -1074
      · left
        rw [hq]
        refine (Int.min_le_right _ _).trans ?_
        show max ((m.log2 + 1 + e) - (n.log2 + 1 + f) - 53) (-1074) ≤ -1074
        omega
      · right
        have htarget : q ≤ (m.log2 + 1 + e) - (n.log2 + 1 + f) - 53 := by
          rw [hq]
          refine (Int.min_le_right _ _).trans ?_
          show max ((m.log2 + 1 + e) - (n.log2 + 1 + f) - 53) (-1074) ≤ _
          omega
        have hlow : (2 : ℚ) ^ ((m.log2 : ℤ) + e) ≤ m * 2 ^ e := by
          rw [two_zpow_add _ _ m.log2 rfl]
          apply mul_le_mul_of_nonneg_right _ (zpow_nonneg two_pos.le _)
          exact_mod_cast Nat.log2_self_le hm.ne'
        have hhigh : (n : ℚ) * 2 ^ f ≤ 2 ^ ((n.log2 + 1 : ℤ) + f) := by
          rw [two_zpow_add _ _ (n.log2 + 1) (by push_cast; rfl)]
          apply mul_le_mul_of_nonneg_right _ (zpow_nonneg two_pos.le _)
          exact_mod_cast (Nat.lt_log2_self (n := n)).le
        rw [le_div_iff₀ (mul_pos hn' (zpow_pos two_pos _))]
        calc (2 : ℚ) ^ (52 + q) * (n * 2 ^ f)
            ≤ 2 ^ (52 + q) * 2 ^ ((n.log2 + 1 : ℤ) + f) :=
              mul_le_mul_of_nonneg_left hhigh (zpow_nonneg two_pos.le _)
          _ = 2 ^ (52 + q + ((n.log2 + 1 : ℤ) + f)) := (zpow_add₀ two_ne_zero _ _).symm
          _ ≤ 2 ^ ((m.log2 : ℤ) + e) := zpow_le_zpow_right₀ one_le_two (by omega)
          _ ≤ m * 2 ^ e := hlow
  rw [← hvalue, ← hround, hk, hq]
  rfl

/-- **A quotient of finite floats is the nearest one.** -/
theorem parts_div_finite {x y : Float} {s t : Sign} {m n : Nat} {e f : Int} {hm : 0 < m}
    {hn : 0 < n} (hx : parts x = .finite s m e hm) (hy : parts y = .finite t n f hn) :
    parts (x / y) = packed (nearestParts (s / t) ((m * 2 ^ e) / (n * 2 ^ f))) := by
  rw [parts_div, hx, hy, div_finite]

/-! ## §2. Sums. -/

/-- Rounding a whole number of units, however many or few they are. -/
theorem round_eq (s : Sign) {n : Nat} (hn : 0 < n) (e : Int) :
    UnpackedFloat.round Format.binary64 s n e = nearestParts s (n * 2 ^ e) := by
  have hpos : (0 : ℚ) < n := by exact_mod_cast hn
  have htarget : Format.binary64.targetExponent (totalExponent n e) = place (n * 2 ^ e) :=
    targetExponent_of_pos hn le_rfl (by linarith)
  unfold UnpackedFloat.round decreaseExponent
  rw [htarget]
  dsimp only
  obtain ⟨k, hk⟩ : ∃ k, k = (e - place (n * 2 ^ e)).toNat := ⟨_, rfl⟩
  rw [← hk]
  -- the units are split until they reach the last place
  have hvalue : ((n <<< k : ℕ) : ℚ) * 2 ^ (e - (k : ℤ)) = n * 2 ^ e := by
    rw [Nat.shiftLeft_eq]
    push_cast
    rw [mul_assoc, ← zpow_natCast, ← zpow_add₀ two_ne_zero]
    congr 2
    omega
  rw [← hvalue]
  apply roundWithAccuracy_eq s (describes_exact _)
  · rw [Nat.shiftLeft_eq]
    exact_mod_cast Nat.mul_pos hn (Nat.two_pow_pos k)
  · rw [hvalue]
    omega

/-- A sign as a number. -/
def factor : Sign → ℚ
  | .positive => 1
  | .negative => -1

theorem apply_cast (s : Sign) (n : Int) : ((s.apply n : ℤ) : ℚ) = factor s * n := by
  cases s with
  | positive => exact (one_mul _).symm
  | negative =>
    show ((-n : ℤ) : ℚ) = -1 * n
    rw [Int.cast_neg, neg_one_mul]

/-- The parts nearest to a number of any sign. -/
def nearestSigned (v : ℚ) : UnpackedFloat :=
  if 0 < v then nearestParts .positive v
  else if v < 0 then nearestParts .negative (-v)
  else .zero .positive

theorem normalize_eq (n e : Int) :
    UnpackedFloat.normalize Format.binary64 n e .positive = nearestSigned (n * 2 ^ e) := by
  have hunit : (0 : ℚ) < 2 ^ e := zpow_pos two_pos _
  unfold UnpackedFloat.normalize nearestSigned
  split
  next hlt =>
    have hneg : n < 0 := Int.compare_eq_lt.1 hlt
    have hcast : (n : ℚ) * 2 ^ e < 0 := mul_neg_of_neg_of_pos (by exact_mod_cast hneg) hunit
    have hvalue : (((-n).toNat : ℕ) : ℚ) = -n := by
      exact_mod_cast Int.toNat_of_nonneg (by omega)
    rw [if_neg (not_lt.2 hcast.le), if_pos hcast, round_eq .negative (by omega), hvalue, neg_mul]
  next heq =>
    have hzero : n = 0 := Int.compare_eq_eq.1 heq
    have hcast : (n : ℚ) * 2 ^ e = 0 := by
      rw [hzero, Int.cast_zero, zero_mul]
    rw [hcast, if_neg (by norm_num), if_neg (by norm_num)]
  next hgt =>
    have hpos : 0 < n := Int.compare_eq_gt.1 hgt
    have hcast : 0 < (n : ℚ) * 2 ^ e := mul_pos (by exact_mod_cast hpos) hunit
    have hvalue : ((n.toNat : ℕ) : ℚ) = n := by
      exact_mod_cast Int.toNat_of_nonneg hpos.le
    rw [if_pos hcast, round_eq .positive (by omega), hvalue]

/-- **A sum of finite floats is the nearest one.** -/
theorem add_finite (s t : Sign) {m n : Nat} {e f : Int} (hm : 0 < m) (hn : 0 < n) :
    UnpackedFloat.add Format.binary64 (.finite s m e hm) (.finite t n f hn)
      = nearestSigned (factor s * (m * 2 ^ e) + factor t * (n * 2 ^ f)) := by
  show UnpackedFloat.normalize Format.binary64
    (s.apply ((m <<< (e - min e f).toNat : ℕ) : ℤ) + t.apply ((n <<< (f - min e f).toNat : ℕ) : ℤ))
    (min e f) .positive = _
  rw [normalize_eq, Int.cast_add, apply_cast, apply_cast, Int.cast_natCast, Int.cast_natCast,
    Nat.shiftLeft_eq, Nat.shiftLeft_eq, multiple_of_le m (min_le_left e f),
    multiple_of_le n (min_le_right e f), add_mul, mul_assoc, mul_assoc]

end HeatMeter.FloatLaws
