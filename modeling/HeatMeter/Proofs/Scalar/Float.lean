/-
  HeatMeter.Proofs.Scalar.Float
  ─────────────────────────────
  **THE FEW LAWS OF SCALARS THAT ENERGY COUNTERS LIVE BY, AND THAT FLOATS OBEY THEM.**

  A float is a sign, a mantissa and an exponent, or an infinity, a zero or no
  number; an operation works on these parts and packs its result into bits.

      irreflexive   no float is below itself
      finite        the hours between two instants are a finite float
      idle          adding `(0 + 0) / 2 * h` for finite `h` to a float changes none
                    of its comparisons: the product is a zero
-/
import HeatMeter.Proofs.Time.Instant
import HeatMeter.Cop.Sample
import Mathlib

namespace HeatMeter.FloatLaws

open Float.Model Float.Model.UnpackedFloat

/-! ## §1. The parts of a float. -/

/-- The parts that a float is made of. -/
def parts (x : Float) : UnpackedFloat :=
  x.toModel.unpack

/-- The parts that are left of a result once it is packed into bits. -/
def packed (u : UnpackedFloat) : UnpackedFloat :=
  unpack Format.binary64 (pack Format.binary64 u)

theorem parts_add (x y : Float) :
    parts (x + y) = packed (add Format.binary64 (parts x) (parts y)) :=
  rfl

theorem parts_mul (x y : Float) :
    parts (x * y) = packed (mul Format.binary64 (parts x) (parts y)) :=
  rfl

theorem parts_div (x y : Float) :
    parts (x / y) = packed (div Format.binary64 (parts x) (parts y)) :=
  rfl

theorem lt_iff {x y : Float} :
    x < y ↔ UnpackedFloat.compare (parts x) (parts y) = some .lt := by
  show decide (Float.Model.lt x.toModel y.toModel = true) = true ↔ _
  rw [decide_eq_true_eq]
  unfold Float.Model.lt UnpackedFloat.lt parts
  rw [beq_iff_eq]

theorem packed_notANumber : packed .notANumber = .notANumber := rfl

theorem packed_infinity (s : Sign) : packed (.infinity s) = .infinity s := by
  cases s <;> rfl

theorem packed_zero (s : Sign) : packed (.zero s) = .zero s := by
  cases s <;> rfl

/-- **Packing keeps the parts of a float**: its bits are those that it unpacks from. -/
theorem packed_parts (x : Float) : packed (parts x) = parts x := by
  unfold packed parts
  exact congrArg (UnpackedFloat.unpack Format.binary64) (pack_unpack_of_valid x.toModel.valid)

/-! ## §2. Comparisons, and sums with a zero. -/

/-- **No float is below itself.** -/
theorem lt_irrefl (x : Float) : ¬ x < x := by
  rw [lt_iff]
  cases parts x with
  | infinity s => cases s <;> decide
  | notANumber => decide
  | zero s => cases s <;> decide
  | finite s m e h => cases s <;> simp [UnpackedFloat.compare]

/-- The sign of a zero does not matter to a comparison. -/
theorem compare_zero (u : UnpackedFloat) (s t : Sign) :
    UnpackedFloat.compare u (.zero s) = UnpackedFloat.compare u (.zero t) := by
  cases u with
  | infinity r => cases r <;> rfl
  | notANumber => rfl
  | zero r => rfl
  | finite r m e h => cases r <;> rfl

/-- A sum with a zero has the parts of the other summand, or is a zero like it. -/
theorem parts_add_zero {y z : Float} {s : Sign} (hz : parts z = .zero s) :
    parts (y + z) = parts y ∨ ∃ r t, parts y = .zero r ∧ parts (y + z) = .zero t := by
  have hkeep := packed_parts y
  rw [parts_add, hz]
  cases hy : parts y with
  | infinity r => exact .inl (packed_infinity r)
  | notANumber => exact .inl packed_notANumber
  | zero r =>
    right
    cases r <;> cases s <;> exact ⟨_, _, rfl, packed_zero _⟩
  | finite r m e h =>
    left
    rw [hy] at hkeep
    exact hkeep

/-- **Adding a zero changes no comparison.** -/
theorem lt_add_of_zero {x y z : Float} {s : Sign} (hz : parts z = .zero s) :
    x < y + z ↔ x < y := by
  rw [lt_iff, lt_iff]
  -- a zero may change its sign in a sum, which comparisons do not see
  rcases parts_add_zero hz with hsame | ⟨r, t, hy, hsum⟩
  · rw [hsame]
  · rw [hy, hsum, compare_zero _ t r]

/-! ## §3. Results that stay finite. -/

/-- The parts are a zero, or finite with an exponent of at most `top`. -/
def Within (top : Int) : UnpackedFloat → Prop
  | .zero _ => True
  | .finite _ _ e _ => e ≤ top
  | .infinity _ | .notANumber => False

theorem Within.mono {u : UnpackedFloat} {a b : Int} (h : Within a u) (hab : a ≤ b) :
    Within b u := by
  cases u with
  | infinity s => exact h
  | notANumber => exact h
  | zero s => trivial
  | finite s m e hm => exact Int.le_trans h hab

theorem Within.zero_or_finite {u : UnpackedFloat} {top : Int} (h : Within top u) :
    (∃ s, u = .zero s) ∨ ∃ s m e hm, u = .finite s m e hm ∧ e ≤ top := by
  cases u with
  | infinity s => exact h.elim
  | notANumber => exact h.elim
  | zero s => exact .inl ⟨s, rfl⟩
  | finite s m e hm => exact .inr ⟨s, m, e, hm, rfl, h⟩

theorem mantissa_shift (em : ExtendedMantissa) (k : Nat) :
    (em >>> k).mantissa = em.mantissa / 2 ^ k := by
  induction k with
  | zero =>
    show em.mantissa = em.mantissa / 2 ^ 0
    rw [Nat.pow_zero, Nat.div_one]
  | succ k ih =>
    show (em >>> k).mantissa / 2 = _
    rw [ih, Nat.div_div_eq_div_mul, Nat.pow_succ]

theorem mantissa_ofAccuracy (m : Nat) (a : Accuracy) :
    (ExtendedMantissa.ofMantissaAndAccuracy m a).mantissa = m := by
  cases a with
  | exact => rfl
  | inexact o => cases o <;> rfl

theorem roundedMantissa_le (em : ExtendedMantissa) :
    em.roundedMantissa ≤ em.mantissa + 1 := by
  unfold ExtendedMantissa.roundedMantissa Accuracy.roundToNearestEven
  split <;> omega

theorem log2_lt_of_lt {n k : Nat} (h : n < 2 ^ (k + 1)) : n.log2 < k + 1 := by
  by_cases hn : n = 0
  · subst hn
    exact Nat.succ_pos k
  · exact (Nat.log2_lt hn).2 h

/-- A mantissa shifted to a larger exponent and rounded has its top bit at most one
place higher. -/
theorem log2_rounded_shift (m : Nat) (e target : Int) (a : Accuracy) :
    ((shiftToExponent m e a target).1.roundedMantissa.log2 : Int) + e + (target - e).toNat
      ≤ max (m.log2 + e + 1) (e + (target - e).toNat) := by
  -- only the shifted mantissa and the one that rounding adds matter from here on
  have hround := roundedMantissa_le (shiftToExponent m e a target).1
  have hshift : (shiftToExponent m e a target).1.mantissa = m / 2 ^ (target - e).toNat := by
    unfold shiftToExponent
    rw [mantissa_shift, mantissa_ofAccuracy]
  rw [hshift] at hround
  generalize (target - e).toNat = k at hround ⊢
  generalize (shiftToExponent m e a target).1.roundedMantissa = r at hround ⊢
  have hm : m < 2 ^ (m.log2 + 1) := Nat.lt_log2_self
  by_cases hk : k ≤ m.log2
  · have hdiv : m / 2 ^ k < 2 ^ (m.log2 + 1 - k) := by
      rw [Nat.div_lt_iff_lt_mul (Nat.two_pow_pos k), ← Nat.pow_add,
        show m.log2 + 1 - k + k = m.log2 + 1 by omega]
      exact hm
    have hr : r < 2 ^ (m.log2 + 1 - k + 1) := by
      have hpos := Nat.two_pow_pos (m.log2 + 1 - k)
      rw [Nat.pow_succ]
      omega
    have hlog : r.log2 < m.log2 + 1 - k + 1 := log2_lt_of_lt hr
    omega
  · have hdiv : m / 2 ^ k = 0 := by
      apply Nat.div_eq_of_lt
      exact Nat.lt_of_lt_of_le hm (Nat.pow_le_pow_right (by decide) (by omega))
    -- every bit is shifted out, and one may be rounded up
    have hr : r < 2 ^ 1 := by omega
    have hlog : r.log2 < 1 := log2_lt_of_lt hr
    omega

theorem targetExponent_eq (m : Nat) (e : Int) :
    Format.binary64.targetExponent (totalExponent m e) = max (m.log2 + 1 + e - 53) (-1074) :=
  rfl

/-- **Rounding keeps a result within one place of where its top bit is.** -/
theorem within_roundWithAccuracy (s : Sign) {m : Nat} {e top : Int} (a : Accuracy)
    (he : e ≤ top) (hm : (m.log2 : Int) + e ≤ top + 52) (htop : -1074 ≤ top) :
    Within (top + 1) (roundWithAccuracy Format.binary64 s m e a) := by
  -- a first shift and rounding, and a second shift where rounding gained a place
  unfold roundWithAccuracy shiftToTargetExponent
  rw [targetExponent_eq]
  have hround := log2_rounded_shift m e (max (m.log2 + 1 + e - 53) (-1074)) a
  have hfirst : (shiftToExponent m e a (max (m.log2 + 1 + e - 53) (-1074))).2
      = e + ((max (m.log2 + 1 + e - 53) (-1074) - e).toNat : Int) := rfl
  generalize shiftToExponent m e a (max (m.log2 + 1 + e - 53) (-1074)) = first
    at hround hfirst ⊢
  obtain ⟨em, e₁⟩ := first
  dsimp only at hround hfirst ⊢
  rw [targetExponent_eq]
  split
  · trivial
  · show e₁ + (((max (em.roundedMantissa.log2 + 1 + e₁ - 53) (-1074) - e₁).toNat : Nat) : Int)
      ≤ top + 1
    omega

/-- What is unpacked from an exponent below the highest is a zero or finite. -/
theorem within_unpack (s : Sign) (e : BitVec 11) (m : BitVec 52) {top : Int}
    (hhigh : e ≠ -1#11) (htop : -1074 ≤ top) (he : (e.toNat : Int) - 1075 ≤ top) :
    Within top (UnpackedFloat.unpack Format.binary64
      (packComponents Format.binary64 s e m)) := by
  rw [UnpackedFloat.unpack]
  simp only [unpackMantissa_packComponents, unpackExponent_packComponents]
  rw [if_neg hhigh]
  split
  next hlow =>
    split
    next => trivial
    next =>
      show (e.toNat : Int) - ((1023 : Nat) + (52 : Nat)) + 1 ≤ top
      rw [hlow]
      show (0 : Int) - ((1023 : Nat) + (52 : Nat)) + 1 ≤ top
      omega
  next =>
    show (e.toNat : Int) - ((1023 : Nat) + (52 : Nat)) ≤ top
    omega

/-- **Packing keeps a result within its bound**, as long as it is one of the format. -/
theorem within_packed {u : UnpackedFloat} {top : Int} (h : Within top u)
    (hlow : -1074 ≤ top) (hhigh : top ≤ 971) : Within top (packed u) := by
  cases u with
  | infinity s => exact h.elim
  | notANumber => exact h.elim
  | zero s =>
    rw [packed_zero]
    trivial
  | finite s m e hm =>
    have he : e ≤ top := h
    -- the biased exponent is below the highest, which infinities have
    have hbits : (e + (Format.binary64.exponentBias : Nat)
        + (Format.binary64.mantissaBitsWithoutImplicit : Nat)).toNat = (e + 1075).toNat := by
      show (e + (1023 : Nat) + (52 : Nat)).toNat = (e + 1075).toNat
      omega
    rw [packed, UnpackedFloat.pack]
    dsimp only
    rw [hbits, if_neg (by omega)]
    split
    · have hexponent : (BitVec.ofNat 11 (e + 1075).toNat).toNat = (e + 1075).toNat := by
        rw [BitVec.toNat_ofNat]
        omega
      apply within_unpack s _ _ _ hlow
      · rw [hexponent]
        omega
      · intro hones
        rw [hones] at hexponent
        have : (2047 : Nat) = (e + 1075).toNat := hexponent
        omega
    · exact within_unpack s _ _ (by decide) hlow (by
        show (0 : Int) - 1075 ≤ top
        omega)

theorem log2_mantissa_le {x : Float} {s : Sign} {m : Nat} {e : Int} {hm : 0 < m}
    (h : parts x = .finite s m e hm) : m.log2 ≤ 52 := by
  have hunpack : UnpackedFloat.unpack Format.binary64 x.toModel.toBits.toBitVec
      = .finite s m e hm := h
  rw [UnpackedFloat.unpack] at hunpack
  split at hunpack
  next => split at hunpack <;> cases hunpack
  next =>
    split at hunpack
    next =>
      split at hunpack
      next => cases hunpack
      next =>
        injection hunpack with _ hmantissa
        have hlog : m.log2 < 52 + 1 := log2_lt_of_lt (by
          rw [← hmantissa]
          exact Nat.lt_of_lt_of_le (BitVec.isLt _) (by decide))
        omega
    next =>
      injection hunpack with _ hmantissa
      have hlog : m.log2 < 52 + 1 := log2_lt_of_lt (by
        rw [← hmantissa]
        exact BitVec.isLt _)
      omega

/-- A product is within one place of where the top bits of its factors put it. -/
theorem within_mul_finite (top : Int) {s t : Sign} {m n : Nat} {e f : Int} (hm : 0 < m)
    (hn : 0 < n) (he : e + f ≤ top) (hlog : ((m * n).log2 : Int) + (e + f) ≤ top + 52)
    (htop : -1074 ≤ top) :
    Within (top + 1) (UnpackedFloat.mul Format.binary64 (.finite s m e hm) (.finite t n f hn)) :=
  within_roundWithAccuracy _ _ he hlog htop

/-- A product is within the sum of the bounds and 54 places. -/
theorem within_mul {x y : Float} {a b : Int} (hx : Within a (parts x)) (hy : Within b (parts y))
    (hlow : -1074 ≤ a + b + 53) (hhigh : a + b + 54 ≤ 971) :
    Within (a + b + 54) (parts (x * y)) := by
  rw [parts_mul]
  apply within_packed _ (by omega) hhigh
  rcases hx.zero_or_finite with ⟨s, hpx⟩ | ⟨s, m, e, hm, hpx, he⟩
  · rcases hy.zero_or_finite with ⟨t, hpy⟩ | ⟨t, n, f, hn, hpy, hf⟩
    · rw [hpx, hpy]
      trivial
    · rw [hpx, hpy]
      trivial
  · rcases hy.zero_or_finite with ⟨t, hpy⟩ | ⟨t, n, f, hn, hpy, hf⟩
    · rw [hpx, hpy]
      trivial
    · have hlogm := log2_mantissa_le hpx
      have hlogn := log2_mantissa_le hpy
      -- two mantissas of 53 bits have a product of 106
      have hproduct : (m * n).log2 < 105 + 1 := by
        apply log2_lt_of_lt
        have h1 : m < 2 ^ (m.log2 + 1) := Nat.lt_log2_self
        have h2 : n < 2 ^ (n.log2 + 1) := Nat.lt_log2_self
        calc m * n < 2 ^ (m.log2 + 1) * 2 ^ (n.log2 + 1) := Nat.mul_lt_mul'' h1 h2
          _ = 2 ^ (m.log2 + 1 + (n.log2 + 1)) := (Nat.pow_add ..).symm
          _ ≤ 2 ^ (105 + 1) := Nat.pow_le_pow_right (by decide) (by omega)
      rw [hpx, hpy]
      exact (within_mul_finite (a + b + 53) hm hn (by omega) (by omega) hlow).mono (by omega)

/-- A quotient is within the bound of the dividend less the exponent of the divisor. -/
theorem within_div {x y : Float} {a : Int} {t : Sign} {n : Nat} {f : Int} {hn : 0 < n}
    (hx : Within a (parts x)) (hy : parts y = .finite t n f hn)
    (hlow : -1074 ≤ a - f) (hhigh : a - f + 2 ≤ 971) : Within (a - f + 2) (parts (x / y)) := by
  rw [parts_div, hy]
  apply within_packed _ (by omega) hhigh
  rcases hx.zero_or_finite with ⟨s, hpx⟩ | ⟨s, m, e, hm, hpx, he⟩
  · rw [hpx]
    trivial
  · have hlogm := log2_mantissa_le hpx
    rw [hpx]
    -- the dividend is shifted down to `target`, so that the quotient has its 53 bits
    obtain ⟨target, htarget⟩ : ∃ target, target = min (e - f)
        (Format.binary64.targetExponent (totalExponent m e - totalExponent n f)) := ⟨_, rfl⟩
    have hle : target ≤ e - f := by
      rw [htarget]
      exact Int.min_le_left _ _
    have hshift : (m <<< (e - f - target).toNat / n).log2
        < m.log2 + (e - f - target).toNat + 1 := by
      apply log2_lt_of_lt
      have hm' : m < 2 ^ (m.log2 + 1) := Nat.lt_log2_self
      calc m <<< (e - f - target).toNat / n ≤ m <<< (e - f - target).toNat := Nat.div_le_self _ _
        _ = m * 2 ^ (e - f - target).toNat := Nat.shiftLeft_eq _ _
        _ < 2 ^ (m.log2 + 1) * 2 ^ (e - f - target).toNat :=
          Nat.mul_lt_mul_of_pos_right hm' (Nat.two_pow_pos _)
        _ = 2 ^ (m.log2 + (e - f - target).toNat + 1) := by
          rw [← Nat.pow_add]
          congr 1
          omega
    have hround : Within (a - f + 1 + 1) (roundWithAccuracy Format.binary64 (s / t)
        (m <<< (e - f - target).toNat / n) target
        (accuracyOfFraction (m <<< (e - f - target).toNat % n) n)) :=
      within_roundWithAccuracy _ _ (by omega) (by omega) (by omega)
    rw [htarget] at hround
    exact hround.mono (by omega)

/-! ## §4. Whole numbers and hours. -/

theorem within_round (s : Sign) (n : Nat) {top : Int} (hn : (n.log2 : Int) ≤ top + 52)
    (htop : 0 ≤ top) : Within (top + 1) (UnpackedFloat.round Format.binary64 s n 0) := by
  unfold UnpackedFloat.round decreaseExponent
  dsimp only
  generalize (0 - Format.binary64.targetExponent (totalExponent n 0)).toNat = k
  apply within_roundWithAccuracy _ _ (by omega) _ (by omega)
  have hshift : (n <<< k).log2 < n.log2 + k + 1 := by
    apply log2_lt_of_lt
    have hn' : n < 2 ^ (n.log2 + 1) := Nat.lt_log2_self
    calc n <<< k = n * 2 ^ k := Nat.shiftLeft_eq _ _
      _ < 2 ^ (n.log2 + 1) * 2 ^ k := Nat.mul_lt_mul_of_pos_right hn' (Nat.two_pow_pos _)
      _ = 2 ^ (n.log2 + k + 1) := by
        rw [← Nat.pow_add]
        congr 1
        omega
  omega

theorem within_toFloat (n : UInt64) : Within 13 (parts n.toFloat) := by
  show Within 13 (packed (UnpackedFloat.normalize Format.binary64 (n.toNat : Int) 0 .positive))
  apply within_packed _ (by decide) (by decide)
  unfold UnpackedFloat.normalize
  split
  next hneg =>
    exact absurd (Int.compare_eq_lt.1 hneg) (by omega)
  next => trivial
  next =>
    have hlog : n.toNat.log2 < 63 + 1 := log2_lt_of_lt n.toNat_lt
    have hround : Within (12 + 1) (UnpackedFloat.round Format.binary64 .positive n.toNat 0) :=
      within_round _ _ (by omega) (by decide)
    rw [Int.toNat_natCast]
    exact hround

/-- A whole number of 64 bits stays finite when it is scaled up and down again. -/
theorem within_rescaled {n : Nat} (h : n < 2 ^ 64) (hn : 0 < n * 2 ^ 53) (hone : 0 < 1) :
    Within 70 (UnpackedFloat.mul Format.binary64 (.finite .positive (n * 2 ^ 53) (-53) hn)
      (.finite .positive 1 0 hone)) := by
  have hlog : (n * 2 ^ 53 * 1).log2 < 116 + 1 := by
    apply log2_lt_of_lt
    omega
  have hplace : ((n * 2 ^ 53 * 1).log2 : Int) + (-53 + 0) ≤ 69 + 52 := by
    generalize (n * 2 ^ 53 * 1).log2 = place at hlog ⊢
    omega
  exact within_mul_finite 69 hn hone (by decide) hplace (by decide)

theorem parts_one : parts Float.exactlyRepresentablePowersOfTen[0]
    = .finite .positive 4503599627370496 (-52) (by decide) :=
  rfl

theorem within_ofNat {n : Nat} (h : n < 2 ^ 64) : Within 70 (parts (Float.ofNat n)) := by
  show Within 70 (parts (Float.ofScientific n false 0))
  unfold Float.ofScientific
  split
  next hsmall =>
    -- a machine word times the first power of ten, which is one
    have hone : Within (-52) (parts Float.exactlyRepresentablePowersOfTen[0]) := by
      rw [parts_one]
      exact Int.le_refl _
    exact (within_mul (within_toFloat n.toUInt64) hone (by decide) (by decide)).mono (by decide)
  next hlarge =>
    -- the way of large literals: the word scaled up by 53 places and rounded
    have hpos : n ≠ 0 := by
      rintro rfl
      exact hlarge ⟨by decide, by decide⟩
    show Within 70 (packed (UnpackedFloat.ofScientific Format.binary64 n 0))
    apply within_packed _ (by decide) (by decide)
    have hrange : ¬ (0 : Int) < -((2 : Int) ^ Format.binary64.exponentBits + n.log2) := by
      have hpow : (2 : Int) ^ Format.binary64.exponentBits = 2048 := rfl
      omega
    unfold UnpackedFloat.ofScientific
    rw [dif_neg hpos, if_neg (by decide), if_neg hrange, if_pos (by decide)]
    have hbits : Format.binary64.mantissaBits = 53 := rfl
    simp only [hbits, Nat.shiftLeft_eq, Int.toNat_zero, Nat.pow_zero]
    exact within_rescaled h _ _

/-- A whole number of 64 bits and a sign is a finite float. -/
theorem within_ofInt {n : Int} (h : n.natAbs < 2 ^ 64) : Within 70 (parts (Float.ofInt n)) := by
  cases n with
  | ofNat n => exact within_ofNat h
  | negSucc n =>
    -- the sign changes neither bound
    have hpos := within_ofNat (n := n.succ) h
    show Within 70 (packed (UnpackedFloat.neg (parts (Float.ofNat n.succ))))
    apply within_packed _ (by decide) (by decide)
    rcases hpos.zero_or_finite with ⟨s, hparts⟩ | ⟨s, m, e, hm, hparts, he⟩
    · rw [hparts]
      trivial
    · rw [hparts]
      exact he

theorem parts_hour : parts (Scalar.ofInt 3600000 : Float)
    = .finite .positive 7730941132800000 (-31) (by decide) :=
  rfl

/-- **A span of 64 bits of milliseconds is a finite number of hours.** -/
theorem within_hours {span : Int} (h : (wholeMillis span).natAbs < 2 ^ 64) :
    Within 103 (parts (hoursOfSpan span : Float)) := by
  exact (within_div (within_ofInt h) parts_hour (by decide) (by decide)).mono (by decide)

/-- **Nothing is gained between two zero powers**: what is added is a zero. -/
theorem parts_idle {hours : Float} {top : Int} (h : Within top (parts hours)) :
    ∃ s, parts (trapezoid 0 0 hours) = .zero s := by
  have hmean : parts ((0 + 0) / Scalar.ofInt 2 : Float) = .zero .positive := rfl
  show ∃ s, parts ((0 + 0) / Scalar.ofInt 2 * hours) = .zero s
  rw [parts_mul, hmean]
  -- zero times what is finite is a zero, whatever the sign
  rcases h.zero_or_finite with ⟨s, hparts⟩ | ⟨s, m, e, hm, hparts, he⟩
  · rw [hparts]
    exact ⟨_, packed_zero _⟩
  · rw [hparts]
    exact ⟨_, packed_zero _⟩

end HeatMeter.FloatLaws

namespace HeatMeter

/-! ## §5. The laws. -/

/-- The laws of scalars that energy counters need. -/
class Scalar.Lawful (α : Type) [Scalar α] : Prop where
  /-- Nothing is below itself. -/
  irrefl : ∀ x : α, ¬ x < x
  /-- The energy between two zero powers changes no comparison. -/
  idle : ∀ (x y : α) (later earlier : Instant),
    x < y + trapezoid 0 0 (hoursOfSpan (later.since earlier)) ↔ x < y

/-- **Floats obey the laws.** -/
instance : Scalar.Lawful Float where
  irrefl := FloatLaws.lt_irrefl
  idle := by
    intro x y later earlier
    have hfinite := FloatLaws.within_hours (Instant.wholeMillis_since_lt later earlier)
    obtain ⟨s, hzero⟩ := FloatLaws.parts_idle hfinite
    exact FloatLaws.lt_add_of_zero hzero

end HeatMeter
