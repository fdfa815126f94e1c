/-
  HeatMeter.Proofs.Scalar.Nearest
  ───────────────────────────────
  **THE RESULT OF AN OPERATION IS THE FLOAT NEAREST TO THE EXACT ONE.**

  An operation on floats computes a mantissa and two residual bits, shifts them to
  the last place of the result, rounds, and shifts once more if rounding has made
  the mantissa too long.

      Describes          the mantissa and its residual bits stand for a rational
      nearestParts s v   the parts of the float nearest to `v`, with the sign `s`

  `roundWithAccuracy_eq` is the one statement about this procedure: whatever it is
  given, its result is `nearestParts`.  Sums, products, quotients and decimals are
  cases of it.
-/
import HeatMeter.Proofs.Scalar.Float
import HeatMeter.Proofs.Scalar.Rounding

namespace HeatMeter.FloatLaws

open Float.Model Float.Model.UnpackedFloat

/-! ## §1. A mantissa with its residual bits. -/

/-- What the residual bits say of the fraction beside the mantissa. -/
def Fraction (roundBit stickyBit : Bool) (r : ℚ) : Prop :=
  match roundBit, stickyBit with
  | false, false => r = 0
  | false, true => 0 < r ∧ r < 1 / 2
  | true, false => r = 1 / 2
  | true, true => 1 / 2 < r ∧ r < 1

/-- The mantissa and its residual bits stand for `x`. -/
def Describes (em : ExtendedMantissa) (x : ℚ) : Prop :=
  Fraction em.roundBit em.stickyBit (x - em.mantissa)

theorem Describes.bounds {em : ExtendedMantissa} {x : ℚ} (h : Describes em x) :
    (em.mantissa : ℚ) ≤ x ∧ x < em.mantissa + 1 := by
  obtain ⟨m, r, s⟩ := em
  cases r <;> cases s <;> simp only [Describes, Fraction] at h ⊢ <;>
    constructor <;> linarith

/-- **Rounding the mantissa is rounding what it stands for.** -/
theorem Describes.roundedMantissa {em : ExtendedMantissa} {x : ℚ} (h : Describes em x) :
    em.roundedMantissa = nearest x := by
  obtain ⟨hlow, hhigh⟩ := h.bounds
  have hfloor : ⌊x⌋₊ = em.mantissa :=
    (Nat.floor_eq_iff (le_trans (Nat.cast_nonneg _) hlow)).2 ⟨hlow, hhigh⟩
  unfold nearest
  rw [hfloor]
  obtain ⟨m, r, s⟩ := em
  cases r with
  | false =>
    have hless : x - m < 1 / 2 := by
      cases s <;> simp only [Describes, Fraction] at h <;> linarith
    rw [if_pos hless]
    cases s <;> rfl
  | true =>
    cases s with
    | false =>
      have hhalf : x - m = 1 / 2 := h
      rw [if_neg (by linarith), if_pos hhalf]
      rfl
    | true =>
      have hmore : 1 / 2 < x - m := h.1
      rw [if_neg (by linarith), if_neg (by linarith)]
      rfl

theorem describes_exact (m : Nat) :
    Describes (ExtendedMantissa.ofMantissaAndAccuracy m .exact) m :=
  sub_self _

/-- The accuracy of a division describes the quotient. -/
theorem describes_div (n : Nat) {d : Nat} (hd : 0 < d) :
    Describes (ExtendedMantissa.ofMantissaAndAccuracy (n / d) (accuracyOfFraction (n % d) d))
      (n / d) := by
  have hpos : (0 : ℚ) < d := by exact_mod_cast hd
  have hfraction : (n : ℚ) / d - (n / d : ℕ) = (n % d : ℕ) / d := by
    rw [eq_div_iff hpos.ne', sub_mul, div_mul_cancel₀ _ hpos.ne', sub_eq_iff_eq_add]
    exact_mod_cast (Nat.mod_add_div' n d).symm
  have hmod : ((n % d : ℕ) : ℚ) < d := by exact_mod_cast Nat.mod_lt n hd
  unfold accuracyOfFraction
  by_cases hzero : n % d = 0
  · rw [if_pos hzero]
    show (n : ℚ) / d - (n / d : ℕ) = 0
    rw [hfraction, hzero]
    simp
  · rw [if_neg hzero]
    have hfirst : (0 : ℚ) < (n % d : ℕ) := by exact_mod_cast Nat.pos_of_ne_zero hzero
    cases hhalf : compare (2 * (n % d)) d with
    | lt =>
      have hless : 2 * (n % d) < d := Nat.compare_eq_lt.1 hhalf
      show 0 < (n : ℚ) / d - (n / d : ℕ) ∧ (n : ℚ) / d - (n / d : ℕ) < 1 / 2
      rw [hfraction, lt_div_iff₀ hpos, div_lt_iff₀ hpos]
      have : 2 * ((n % d : ℕ) : ℚ) < d := by exact_mod_cast hless
      constructor <;> linarith
    | eq =>
      have heq : 2 * (n % d) = d := Nat.compare_eq_eq.1 hhalf
      show (n : ℚ) / d - (n / d : ℕ) = 1 / 2
      rw [hfraction, div_eq_iff hpos.ne']
      have : 2 * ((n % d : ℕ) : ℚ) = d := by exact_mod_cast heq
      linarith
    | gt =>
      have hmore : d < 2 * (n % d) := Nat.compare_eq_gt.1 hhalf
      show 1 / 2 < (n : ℚ) / d - (n / d : ℕ) ∧ (n : ℚ) / d - (n / d : ℕ) < 1
      rw [hfraction, lt_div_iff₀ hpos, div_lt_iff₀ hpos]
      have : (d : ℚ) < 2 * ((n % d : ℕ) : ℚ) := by exact_mod_cast hmore
      constructor <;> linarith

/-- A shift by one place halves: the lost bit becomes the round bit. -/
theorem Describes.shiftRightOne {em : ExtendedMantissa} {x : ℚ} (h : Describes em x) :
    Describes em.shiftRightOne (x / 2) := by
  obtain ⟨m, r, s⟩ := em
  have hm : (m : ℚ) = 2 * (m / 2 : ℕ) + (m % 2 : ℕ) := by
    exact_mod_cast (Nat.div_add_mod m 2).symm
  have hfraction : x / 2 - (m / 2 : ℕ) = ((m % 2 : ℕ) + (x - m)) / 2 := by
    rw [hm]
    ring
  unfold Describes at h
  show Fraction (m % 2 != 0) (r || s) (x / 2 - (m / 2 : ℕ))
  rw [hfraction]
  dsimp only at h
  generalize x - (m : ℚ) = f at h
  -- the lost bit and the two old ones say where the new fraction lies
  rcases Nat.mod_two_eq_zero_or_one m with heven | hodd
  · rw [heven]
    cases r <;> cases s <;> simp [Fraction] at h ⊢ <;>
      first | linarith | (constructor <;> linarith)
  · rw [hodd]
    cases r <;> cases s <;> simp [Fraction] at h ⊢ <;>
      first | linarith | (constructor <;> linarith)

theorem Describes.shiftRight {em : ExtendedMantissa} {x : ℚ} (h : Describes em x) (k : Nat) :
    Describes (em >>> k) (x / 2 ^ k) := by
  induction k with
  | zero =>
    rw [pow_zero, div_one]
    exact h
  | succ k ih =>
    have hstep := ih.shiftRightOne
    rw [div_div, ← pow_succ] at hstep
    exact hstep

/-! ## §2. The nearest float. -/

/-- The parts of the float nearest to `v`, were there no largest one. -/
def nearestParts (s : Sign) (v : ℚ) : UnpackedFloat :=
  if h : digits v = 0 then .zero s
  else if digits v = 2 ^ 53 then .finite s (2 ^ 52) (place v + 1) (Nat.two_pow_pos 52)
  else .finite s (digits v) (place v) (Nat.pos_of_ne_zero h)

/-- The target of the first shift is the last place of what is rounded. -/
theorem targetExponent_of_pos {m : Nat} {e : Int} {x : ℚ} (hm : 0 < m) (hlow : (m : ℚ) ≤ x)
    (hhigh : x < m + 1) :
    Format.binary64.targetExponent (totalExponent m e) = place (x * 2 ^ e) := by
  have hunit : (0 : ℚ) < 2 ^ e := zpow_pos two_pos _
  have hfirst : (0 : ℚ) < m := by exact_mod_cast hm
  rw [targetExponent_eq]
  symm
  apply place_eq (mul_pos (by linarith) hunit) (le_max_right _ _)
  · -- a mantissa lies below the power of two after its first bit
    have hbits : x < 2 ^ (m.log2 + 1) := by
      have hcast : ((m : ℚ) + 1) ≤ 2 ^ (m.log2 + 1) := by exact_mod_cast Nat.lt_log2_self
      linarith
    calc x * 2 ^ e < 2 ^ (m.log2 + 1) * 2 ^ e := mul_lt_mul_of_pos_right hbits hunit
      _ = 2 ^ ((m.log2 + 1 : ℕ) + e) := by rw [zpow_add₀ two_ne_zero, zpow_natCast]
      _ ≤ _ := zpow_le_zpow_right₀ one_le_two (by push_cast; omega)
  · by_cases hleast : m.log2 + 1 + e - 53 ≤ -1074
    · exact .inl (max_eq_right hleast)
    · right
      rw [max_eq_left (by omega), show 52 + (m.log2 + 1 + e - 53) = (m.log2 : ℕ) + e by omega,
        two_zpow_add _ _ m.log2 rfl]
      apply mul_le_mul_of_nonneg_right _ hunit.le
      have hbits : ((2 ^ m.log2 : ℕ) : ℚ) ≤ m := by exact_mod_cast Nat.log2_self_le hm.ne'
      linarith

/-- Where there is no mantissa but residual bits alone, the last place is the lowest one. -/
theorem targetExponent_of_zero {e : Int} {x : ℚ} (hhigh : x < 1) (hpos : 0 < x)
    (he : e ≤ place (x * 2 ^ e)) :
    Format.binary64.targetExponent (totalExponent 0 e) = place (x * 2 ^ e) := by
  have hunit : (0 : ℚ) < 2 ^ e := zpow_pos two_pos _
  have hlog : (0 : Nat).log2 = 0 := rfl
  have hleast : e ≤ -1074 := by
    by_contra hlarge
    have hsmall : x * 2 ^ e < 2 ^ (53 + max (e - 53) (-1074)) := by
      calc x * 2 ^ e < 2 ^ e := mul_lt_of_lt_one_left hunit hhigh
        _ ≤ _ := zpow_le_zpow_right₀ one_le_two (by omega)
    have hplace := place_le_of_lt (mul_pos hpos hunit) (le_max_right _ _) hsmall
    omega
  have hsmall : x * 2 ^ e < 2 ^ (53 + (-1074 : ℤ)) := by
    calc x * 2 ^ e < 2 ^ e := mul_lt_of_lt_one_left hunit hhigh
      _ ≤ _ := zpow_le_zpow_right₀ one_le_two (by omega)
  rw [targetExponent_eq, hlog, place_eq (mul_pos hpos hunit) (by decide) hsmall (.inl rfl)]
  omega

/-- A mantissa of 53 bits stays where it is; one more bit is shifted out. -/
theorem shift_rounded {n : Nat} {q : Int} (hn : n ≤ 2 ^ 53) (hq : -1074 ≤ q) :
    (shiftToTargetExponent Format.binary64 n q .exact).1.mantissa
        = (if n = 2 ^ 53 then 2 ^ 52 else n)
      ∧ (shiftToTargetExponent Format.binary64 n q .exact).2
        = (if n = 2 ^ 53 then q + 1 else q) := by
  unfold shiftToTargetExponent shiftToExponent
  rw [targetExponent_eq]
  dsimp only
  rw [mantissa_shift, mantissa_ofAccuracy]
  by_cases htop : n = 2 ^ 53
  · have hlog : n.log2 = 53 := by
      rw [htop]
      exact Nat.log2_two_pow
    have hshift : (max ((n.log2 : Int) + 1 + q - 53) (-1074) - q).toNat = 1 := by omega
    rw [hshift, if_pos htop, if_pos htop, htop]
    exact ⟨rfl, rfl⟩
  · have hlog : n.log2 < 52 + 1 := log2_lt_of_lt (by omega)
    have hshift : (max ((n.log2 : Int) + 1 + q - 53) (-1074) - q).toNat = 0 := by omega
    rw [hshift, if_neg htop, if_neg htop, Nat.pow_zero, Nat.div_one]
    exact ⟨rfl, by omega⟩

theorem finite_congr (s : Sign) {m n : Nat} {e f : Int} (hm : m = n) (he : e = f) (h : 0 < m)
    (h' : 0 < n) : UnpackedFloat.finite s m e h = .finite s n f h' := by
  subst hm he
  rfl

/-- **Rounding gives the nearest float**, whatever the mantissa and its residual bits stand
for, as long as they reach down to its last place. -/
theorem roundWithAccuracy_eq (s : Sign) {m : Nat} {e : Int} {a : Accuracy} {x : ℚ}
    (hx : Describes (ExtendedMantissa.ofMantissaAndAccuracy m a) x) (hpos : 0 < x)
    (he : e ≤ place (x * 2 ^ e)) :
    roundWithAccuracy Format.binary64 s m e a = nearestParts s (x * 2 ^ e) := by
  obtain ⟨hlow, hhigh⟩ := hx.bounds
  rw [mantissa_ofAccuracy] at hlow hhigh
  have htarget : Format.binary64.targetExponent (totalExponent m e) = place (x * 2 ^ e) := by
    rcases Nat.eq_zero_or_pos m with rfl | hm
    · exact targetExponent_of_zero (by simpa using hhigh) hpos he
    · exact targetExponent_of_pos hm hlow hhigh
  -- the first shift reaches the last place, where the mantissa is rounded
  have hplace : e + ((place (x * 2 ^ e) - e).toNat : Int) = place (x * 2 ^ e) := by omega
  have hscaled : x / 2 ^ (place (x * 2 ^ e) - e).toNat = x * 2 ^ e / 2 ^ place (x * 2 ^ e) := by
    rw [div_eq_div_iff (pow_ne_zero _ two_ne_zero) (zpow_ne_zero _ two_ne_zero), mul_assoc,
      ← zpow_natCast, ← zpow_add₀ two_ne_zero, hplace]
  have hrounded := (hx.shiftRight (place (x * 2 ^ e) - e).toNat).roundedMantissa
  rw [hscaled] at hrounded
  change _ = digits (x * 2 ^ e) at hrounded
  unfold roundWithAccuracy
  have hfirst : shiftToTargetExponent Format.binary64 m e a
      = (ExtendedMantissa.ofMantissaAndAccuracy m a >>> (place (x * 2 ^ e) - e).toNat,
        place (x * 2 ^ e)) := by
    unfold shiftToTargetExponent shiftToExponent
    rw [htarget]
    dsimp only
    rw [hplace]
  rw [hfirst]
  dsimp only
  rw [hrounded]
  obtain ⟨hmantissa, hexponent⟩ := shift_rounded (digits_le (x * 2 ^ e)) (place_ge (x * 2 ^ e))
  unfold nearestParts
  generalize shiftToTargetExponent Format.binary64 _ _ _ = second at hmantissa hexponent ⊢
  obtain ⟨em, e₂⟩ := second
  dsimp only at hmantissa hexponent ⊢
  -- the second shift takes a 54th bit away
  by_cases htop : digits (x * 2 ^ e) = 2 ^ 53
  · rw [if_pos htop] at hmantissa hexponent
    rw [dif_neg (by omega), dif_neg (by omega), if_pos htop]
    exact finite_congr s hmantissa hexponent _ _
  · rw [if_neg htop] at hmantissa hexponent
    by_cases hzero : digits (x * 2 ^ e) = 0
    · rw [dif_pos (by omega), dif_pos hzero]
    · rw [dif_neg (by omega), dif_neg hzero, if_neg htop]
      exact finite_congr s hmantissa hexponent _ _

/-! ## §3. Packing what is rounded. -/

/-- The parts of a float as it is packed: 53 bits of mantissa, fewer only at the lowest
exponent. -/
def Canonical : UnpackedFloat → Prop
  | .finite _ m e _ => m < 2 ^ 53 ∧ -1074 ≤ e ∧ (e = -1074 ∨ 2 ^ 52 ≤ m)
  | _ => True

theorem canonical_nearestParts (s : Sign) {v : ℚ} (hv : 0 < v) :
    Canonical (nearestParts s v) := by
  have hle := digits_le v
  have hge := place_ge v
  unfold nearestParts
  by_cases hzero : digits v = 0
  · rw [dif_pos hzero]
    trivial
  rw [dif_neg hzero]
  by_cases htop : digits v = 2 ^ 53
  · rw [if_pos htop]
    exact ⟨by decide, by omega, .inr (Nat.le_refl _)⟩
  · rw [if_neg htop]
    refine ⟨by omega, hge, ?_⟩
    by_cases hleast : place v = -1074
    · exact .inl hleast
    · exact .inr (le_digits hv hleast)

/-! ## §4. Packing the nearest float. -/

theorem unpackSign_packComponents (s : Sign) (e : BitVec 11) (m : BitVec 52) :
    Sign.ofBitVec (unpackSign (packComponents Format.binary64 s e m)) = s := by
  have hbit : unpackSign (packComponents Format.binary64 s e m) = s.toBitVec := by
    ext i hi
    obtain rfl : i = 0 := by omega
    simp only [unpackSign, Nat.reduceAdd, Nat.reduceSub, packComponents, BitVec.cast_eq,
      BitVec.getElem_extract, add_zero]
    rw [BitVec.getLsbD_append, BitVec.getLsbD_append, if_neg (by decide), if_neg (by decide)]
    rfl
  rw [hbit]
  cases s <;> rfl

/-- The bits of a mantissa after the first one, and the first one in front of them. -/
theorem toNat_implicit (m : BitVec 52) : (1#1 ++ m).toNat = 2 ^ 52 + m.toNat := by
  rw [BitVec.toNat_append, ← Nat.shiftLeft_add_eq_or_of_lt m.isLt]
  rfl

theorem biasedExponent_eq (e : Int) :
    (e + (Format.binary64.exponentBias : Nat)
      + (Format.binary64.mantissaBitsWithoutImplicit : Nat)).toNat = (e + 1075).toNat := by
  show (e + (1023 : Nat) + (52 : Nat)).toNat = (e + 1075).toNat
  omega

theorem toNat_biasedExponent {e : Int} (he : e ≤ 971) :
    (BitVec.ofNat 11 (e + 1075).toNat).toNat = (e + 1075).toNat := by
  rw [BitVec.toNat_ofNat]
  omega

theorem packed_normal {s : Sign} {m : Nat} {e : Int} (hm : 0 < m) (hlt : m < 2 ^ 53)
    (hlarge : 2 ^ 52 ≤ m) (he : -1074 ≤ e) (hrange : e ≤ 971) :
    packed (.finite s m e hm) = .finite s m e hm := by
  have hlog : m.log2 + 1 = Format.binary64.mantissaBits := by
    have hlow : 52 ≤ m.log2 := (Nat.le_log2 hm.ne').2 hlarge
    have hhigh : m.log2 < 52 + 1 := log2_lt_of_lt hlt
    show m.log2 + 1 = 53
    omega
  -- the biased exponent is neither that of the infinities nor that of the small numbers
  have hexponent := toNat_biasedExponent hrange
  have hones : BitVec.ofNat 11 (e + 1075).toNat ≠ -1#11 := by
    intro h
    rw [h] at hexponent
    have : (2047 : Nat) = (e + 1075).toNat := hexponent
    omega
  have hnonzero : BitVec.ofNat 11 (e + 1075).toNat ≠ 0#11 := by
    intro h
    rw [h] at hexponent
    have : 0 = (e + 1075).toNat := hexponent
    omega
  rw [packed, UnpackedFloat.pack]
  dsimp only
  rw [biasedExponent_eq, if_neg (by omega), if_pos hlog, UnpackedFloat.unpack]
  simp only [unpackMantissa_packComponents, unpackExponent_packComponents,
    unpackSign_packComponents]
  rw [if_neg hones, if_neg hnonzero]
  apply finite_congr
  · rw [toNat_implicit, BitVec.toNat_ofNat]
    omega
  · rw [hexponent]
    show ((e + 1075).toNat : Int) - ((1023 : Nat) + (52 : Nat)) = e
    omega

theorem packed_subnormal {s : Sign} {m : Nat} (hm : 0 < m) (hsmall : m < 2 ^ 52) :
    packed (.finite s m (-1074) hm) = .finite s m (-1074) hm := by
  have hlog : m.log2 + 1 ≠ Format.binary64.mantissaBits := by
    have hlt : m.log2 < 52 := (Nat.log2_lt hm.ne').2 hsmall
    show m.log2 + 1 ≠ 53
    omega
  have hmantissa : (BitVec.ofNat 52 m).toNat = m := by
    rw [BitVec.toNat_ofNat]
    omega
  have hnonzero : BitVec.ofNat 52 m ≠ 0#52 := by
    intro h
    rw [h] at hmantissa
    have : 0 = m := hmantissa
    omega
  rw [packed, UnpackedFloat.pack]
  dsimp only
  rw [biasedExponent_eq, if_neg (by decide), if_neg hlog, UnpackedFloat.unpack]
  simp only [unpackMantissa_packComponents, unpackExponent_packComponents,
    unpackSign_packComponents]
  rw [if_neg (by decide), if_pos trivial, dif_neg hnonzero]
  exact finite_congr s hmantissa rfl _ _

/-- **Packing keeps a float that is in range**, and makes an infinity of any other. -/
theorem packed_of_canonical {s : Sign} {m : Nat} {e : Int} {hm : 0 < m}
    (h : Canonical (.finite s m e hm)) :
    packed (.finite s m e hm) = if e ≤ 971 then .finite s m e hm else .infinity s := by
  obtain ⟨hlt, he, hnormal⟩ := h
  by_cases hrange : e ≤ 971
  · rw [if_pos hrange]
    by_cases hlarge : 2 ^ 52 ≤ m
    · exact packed_normal hm hlt hlarge he hrange
    · obtain rfl : e = -1074 := by omega
      exact packed_subnormal hm (by omega)
  · rw [if_neg hrange, packed, UnpackedFloat.pack]
    dsimp only
    rw [biasedExponent_eq, if_pos (by omega)]
    exact packed_infinity s

/-- **The parts of a float are canonical and in range.** -/
theorem canonical_parts {x : Float} {s : Sign} {m : Nat} {e : Int} {hm : 0 < m}
    (h : parts x = .finite s m e hm) : Canonical (.finite s m e hm) ∧ e ≤ 971 := by
  have hunpack : UnpackedFloat.unpack Format.binary64 x.toModel.toBits.toBitVec
      = .finite s m e hm := h
  rw [UnpackedFloat.unpack] at hunpack
  -- the fields of the bits, of 11 and of 52 bits
  obtain ⟨b, hb⟩ : ∃ b : BitVec Format.binary64.numBits, b = x.toModel.toBits.toBitVec :=
    ⟨_, rfl⟩
  rw [← hb] at hunpack
  obtain ⟨E, hE⟩ : ∃ E : BitVec 11, E = unpackExponent b := ⟨_, rfl⟩
  obtain ⟨M, hM⟩ : ∃ M : BitVec 52, M = unpackMantissa b := ⟨_, rfl⟩
  have hMlt : M.toNat < 2 ^ 52 := M.isLt
  have hElt : E.toNat < 2 ^ 11 := E.isLt
  dsimp only at hunpack
  split at hunpack
  next => split at hunpack <;> cases hunpack
  next hones =>
    rw [← hE] at hones
    have hnotOnes : E.toNat ≠ 2047 := fun h => hones (BitVec.eq_of_toNat_eq h)
    split at hunpack
    next hlow =>
      split at hunpack
      next => cases hunpack
      next =>
        injection hunpack with _ hmantissa hexponent
        have hplace : e = -1074 := by
          rw [← hexponent, hlow]
          rfl
        rw [← hM] at hmantissa
        exact ⟨⟨by omega, by omega, .inl hplace⟩, by omega⟩
    next hlow =>
      injection hunpack with _ hmantissa hexponent
      rw [← hE] at hlow
      have hnotZero : E.toNat ≠ 0 := fun h => hlow (BitVec.eq_of_toNat_eq h)
      have hplace : e = (E.toNat : Int) - ((1023 : Nat) + (52 : Nat)) := by
        rw [hE]
        exact hexponent.symm
      rw [← hM, toNat_implicit] at hmantissa
      exact ⟨⟨by omega, by omega, .inr (by omega)⟩, by omega⟩

end HeatMeter.FloatLaws
