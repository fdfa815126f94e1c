/-
  HeatMeter.Proofs.Scalar.Order
  ─────────────────────────────
  **FLOATS ARE ORDERED AS WHAT THEY STAND FOR, AND SUMS KEEP THE ORDER.**

  A float that is not a NaN stands for a rational, an infinity for one beyond every
  finite float.  Comparisons compare these rationals, and a finite sum stands for the
  rational nearest to the exact one:

      le_iff, lt_iff, beq_iff    comparisons of floats
      lt_iff_not_le              which fail both ways only with a NaN
      value_add                  what a sum of two finite floats stands for
      le_add, add_le_add         adding what is not negative keeps the order
      trapezoid_nonneg           the energy between two such powers is such

  The last two lines need no bound: a sum that leaves the range is an infinity, which
  is above every finite float.
-/
import HeatMeter.Proofs.Scalar.Operations

namespace HeatMeter.FloatLaws

open Float.Model Float.Model.UnpackedFloat

/-! ## §1. What a float stands for. -/

/-- A number beyond every finite float. -/
def beyond : ℚ :=
  2 ^ 1024

theorem beyond_pos : 0 < beyond :=
  pow_pos two_pos _

/-- What a float stands for; the infinities are beyond every finite float. -/
def value : UnpackedFloat → ℚ
  | .notANumber => 0
  | .infinity s => factor s * beyond
  | .zero _ => 0
  | .finite s m e _ => factor s * (m * 2 ^ e)

/-- The parts of a float, as canonical as packing makes them, and in range. -/
def Representable : UnpackedFloat → Prop
  | .finite s m e h => Canonical (.finite s m e h) ∧ e ≤ 971
  | _ => True

theorem representable_parts (x : Float) : Representable (parts x) := by
  cases h : parts x with
  | finite s m e hm => exact canonical_parts h
  | _ => trivial

/-- Every finite float is below the infinity. -/
theorem finite_lt {m : Nat} {e : Int} (hm : m < 2 ^ 53) (he : e ≤ 971) :
    (m : ℚ) * 2 ^ e < beyond := by
  have hm' : (m : ℚ) < (2 ^ 53 : ℕ) := by exact_mod_cast hm
  calc (m : ℚ) * 2 ^ e < (2 ^ 53 : ℕ) * 2 ^ e := mul_lt_mul_of_pos_right hm' (zpow_pos two_pos _)
    _ = 2 ^ (53 + e) := (two_zpow_add 53 e 53 rfl).symm
    _ ≤ 2 ^ ((1024 : ℕ) : ℤ) := zpow_le_zpow_right₀ one_le_two (by omega)
    _ = beyond := zpow_natCast _ _

/-! ## §2. Comparisons. -/

/-- Of canonical mantissas the exponents decide first. -/
theorem compare_mantissas {s t : Sign} {m n : Nat} {e f : Int} {hm : 0 < m} {hn : 0 < n}
    (hx : Canonical (.finite s m e hm)) (hy : Canonical (.finite t n f hn)) :
    (compare e f).then (compare m n) = cmp ((m : ℚ) * 2 ^ e) (n * 2 ^ f) := by
  obtain ⟨hmlt, hemin, hmlarge⟩ := hx
  obtain ⟨hnlt, hfmin, hnlarge⟩ := hy
  -- a larger exponent outweighs every mantissa
  have hless : ∀ {m n : ℕ} {e f : ℤ}, m < 2 ^ 53 → 2 ^ 52 ≤ n → e < f →
      (m : ℚ) * 2 ^ e < n * 2 ^ f := by
    intro m n e f hm hn h
    have hm' : (m : ℚ) < 2 ^ 53 := by exact_mod_cast hm
    have hn' : (2 : ℚ) ^ 52 ≤ n := by exact_mod_cast hn
    calc (m : ℚ) * 2 ^ e < 2 ^ 53 * 2 ^ e := mul_lt_mul_of_pos_right hm' (zpow_pos two_pos _)
      _ = 2 ^ 52 * 2 ^ (e + 1) := by
        rw [zpow_add₀ two_ne_zero]
        ring
      _ ≤ 2 ^ 52 * 2 ^ f := by
        apply mul_le_mul_of_nonneg_left _ (by positivity)
        exact zpow_le_zpow_right₀ one_le_two (by omega)
      _ ≤ n * 2 ^ f := mul_le_mul_of_nonneg_right hn' (zpow_nonneg two_pos.le _)
  rcases lt_trichotomy e f with hlt | rfl | hgt
  · rw [Int.compare_eq_lt.2 hlt, cmp_eq_lt_iff _ _ |>.2 (hless hmlt (by omega) hlt)]
    rfl
  · rw [Int.compare_eq_eq.2 rfl]
    have hunit : (0 : ℚ) < 2 ^ e := zpow_pos two_pos _
    show compare m n = _
    rcases lt_trichotomy m n with hlt | rfl | hgt
    · have hcast : (m : ℚ) < n := by exact_mod_cast hlt
      rw [Nat.compare_eq_lt.2 hlt, (cmp_eq_lt_iff _ _).2 (mul_lt_mul_of_pos_right hcast hunit)]
    · rw [Nat.compare_eq_eq.2 rfl, cmp_self_eq_eq]
    · have hcast : (n : ℚ) < m := by exact_mod_cast hgt
      rw [Nat.compare_eq_gt.2 hgt, (cmp_eq_gt_iff _ _).2 (mul_lt_mul_of_pos_right hcast hunit)]
  · rw [Int.compare_eq_gt.2 hgt, (cmp_eq_gt_iff _ _).2 (hless hnlt (by omega) hgt)]
    rfl

/-- **Comparisons compare what the floats stand for.** -/
theorem compare_eq {u v : UnpackedFloat} (hu : Representable u) (hv : Representable v)
    (hun : u ≠ .notANumber) (hvn : v ≠ .notANumber) :
    UnpackedFloat.compare u v = some (cmp (value u) (value v)) := by
  have htop := beyond_pos
  have hbound : ∀ {s : Sign} {m : ℕ} {e : ℤ} {hm : 0 < m}, Representable (.finite s m e hm) →
      (0 : ℚ) < m * 2 ^ e ∧ (m : ℚ) * 2 ^ e < beyond := by
    intro s m e hm h
    exact ⟨mul_pos (by exact_mod_cast hm) (zpow_pos two_pos _), finite_lt h.1.1 h.2⟩
  have hlt : ∀ {a b : ℚ}, a < b → some Ordering.lt = some (cmp a b) := fun h =>
    congrArg some ((cmp_eq_lt_iff _ _).2 h).symm
  have hgt : ∀ {a b : ℚ}, b < a → some Ordering.gt = some (cmp a b) := fun h =>
    congrArg some ((cmp_eq_gt_iff _ _).2 h).symm
  have heq : ∀ {a : ℚ}, some Ordering.eq = some (cmp a a) := congrArg some (cmp_self_eq_eq _).symm
  -- the shapes and the signs tell all but two finite floats of one sign apart
  cases u with
  | notANumber => exact absurd rfl hun
  | infinity s =>
    cases v with
    | notANumber => exact absurd rfl hvn
    | infinity t =>
      cases s <;> cases t <;>
        first
        | exact heq
        | exact hlt (by simp only [value, factor]; linarith)
        | exact hgt (by simp only [value, factor]; linarith)
    | zero t =>
      cases s <;>
        first
        | exact hlt (by simp only [value, factor]; linarith)
        | exact hgt (by simp only [value, factor]; linarith)
    | finite t n f hn =>
      obtain ⟨hpos, hmax⟩ := hbound hv
      cases s <;> cases t <;>
        first
        | exact hlt (by simp only [value, factor]; linarith)
        | exact hgt (by simp only [value, factor]; linarith)
  | zero s =>
    cases v with
    | notANumber => exact absurd rfl hvn
    | infinity t =>
      cases t <;>
        first
        | exact hlt (by simp only [value, factor]; linarith)
        | exact hgt (by simp only [value, factor]; linarith)
    | zero t => exact heq
    | finite t n f hn =>
      obtain ⟨hpos, hmax⟩ := hbound hv
      cases t <;>
        first
        | exact hlt (by simp only [value, factor]; linarith)
        | exact hgt (by simp only [value, factor]; linarith)
  | finite s m e hm =>
    obtain ⟨hpos, hmax⟩ := hbound hu
    cases v with
    | notANumber => exact absurd rfl hvn
    | infinity t =>
      cases s <;> cases t <;>
        first
        | exact hlt (by simp only [value, factor]; linarith)
        | exact hgt (by simp only [value, factor]; linarith)
    | zero t =>
      cases s <;>
        first
        | exact hlt (by simp only [value, factor]; linarith)
        | exact hgt (by simp only [value, factor]; linarith)
    | finite t n f hn =>
      obtain ⟨hpos', hmax'⟩ := hbound hv
      have hmantissas := compare_mantissas hu.1 hv.1
      cases s with
      | negative =>
        cases t with
        | negative =>
          show some ((compare e f).then (compare m n)).swap = _
          rw [hmantissas, cmp_swap]
          exact congrArg some (cmp_mul_neg_left neg_one_lt_zero _ _).symm
        | positive => exact hlt (by simp only [value, factor]; linarith)
      | positive =>
        cases t with
        | negative => exact hgt (by simp only [value, factor]; linarith)
        | positive =>
          show some ((compare e f).then (compare m n)) = _
          rw [hmantissas]
          exact congrArg some (cmp_mul_pos_left one_pos _ _).symm

theorem compare_parts {x y : Float} (hx : parts x ≠ .notANumber) (hy : parts y ≠ .notANumber) :
    UnpackedFloat.compare (parts x) (parts y) = some (cmp (value (parts x)) (value (parts y))) :=
  compare_eq (representable_parts x) (representable_parts y) hx hy

/-- What is no number compares with nothing. -/
theorem compare_of_notANumber {u v : UnpackedFloat} (h : u = .notANumber ∨ v = .notANumber) :
    UnpackedFloat.compare u v = none := by
  rcases h with rfl | rfl
  · rfl
  · cases u with
    | infinity s => cases s <;> rfl
    | finite s m e hm => cases s <;> rfl
    | _ => rfl

/-- A comparison holds between numbers alone, and then if what they stand for compares so. -/
theorem compare_any {x y : Float} (p : Ordering → Bool) :
    (UnpackedFloat.compare (parts x) (parts y)).any p = true
      ↔ parts x ≠ .notANumber ∧ parts y ≠ .notANumber
        ∧ p (cmp (value (parts x)) (value (parts y))) = true := by
  by_cases hx : parts x = .notANumber
  · rw [compare_of_notANumber (.inl hx)]
    simp [hx]
  by_cases hy : parts y = .notANumber
  · rw [compare_of_notANumber (.inr hy)]
    simp [hy]
  rw [compare_parts hx hy]
  simp [hx, hy]

theorem le_iff {x y : Float} :
    x ≤ y ↔ parts x ≠ .notANumber ∧ parts y ≠ .notANumber
      ∧ value (parts x) ≤ value (parts y) := by
  have hle : (cmp (value (parts x)) (value (parts y))).isLE = true
      ↔ value (parts x) ≤ value (parts y) := by
    rcases lt_trichotomy (value (parts x)) (value (parts y)) with h | h | h
    · rw [(cmp_eq_lt_iff _ _).2 h]
      simp [h.le]
    · rw [h, cmp_self_eq_eq]
      simp
    · rw [(cmp_eq_gt_iff _ _).2 h]
      simp [h]
  rw [← hle, ← compare_any]
  exact decide_eq_true_iff

theorem lt_iff_value {x y : Float} :
    x < y ↔ parts x ≠ .notANumber ∧ parts y ≠ .notANumber
      ∧ value (parts x) < value (parts y) := by
  rw [lt_iff]
  constructor
  · intro h
    have hany : (UnpackedFloat.compare (parts x) (parts y)).any (· == .lt) = true := by
      rw [h]
      rfl
    obtain ⟨hx, hy, hcmp⟩ := (compare_any _).1 hany
    exact ⟨hx, hy, (cmp_eq_lt_iff _ _).1 (eq_of_beq hcmp)⟩
  · rintro ⟨hx, hy, hlt⟩
    rw [compare_parts hx hy, (cmp_eq_lt_iff _ _).2 hlt]

theorem beq_iff {x y : Float} :
    (x == y) = true ↔ parts x ≠ .notANumber ∧ parts y ≠ .notANumber
      ∧ value (parts x) = value (parts y) := by
  show (UnpackedFloat.compare (parts x) (parts y) == some .eq) = true ↔ _
  rw [beq_iff_eq]
  constructor
  · intro h
    have hany : (UnpackedFloat.compare (parts x) (parts y)).any (· == .eq) = true := by
      rw [h]
      rfl
    obtain ⟨hx, hy, hcmp⟩ := (compare_any _).1 hany
    exact ⟨hx, hy, (cmp_eq_eq_iff _ _).1 (eq_of_beq hcmp)⟩
  · rintro ⟨hx, hy, heq⟩
    rw [compare_parts hx hy, (cmp_eq_eq_iff _ _).2 heq]

theorem le_of_lt {x y : Float} (h : x < y) : x ≤ y := by
  obtain ⟨hx, hy, hlt⟩ := lt_iff_value.1 h
  exact le_iff.2 ⟨hx, hy, hlt.le⟩

theorem le_trans {x y z : Float} (h : x ≤ y) (h' : y ≤ z) : x ≤ z := by
  obtain ⟨hx, -, hxy⟩ := le_iff.1 h
  obtain ⟨-, hz, hyz⟩ := le_iff.1 h'
  exact le_iff.2 ⟨hx, hz, hxy.trans hyz⟩

theorem isNaN_eq_false_iff {x : Float} : x.isNaN = false ↔ parts x ≠ .notANumber := by
  show (parts x).isNaN = false ↔ _
  cases parts x <;> simp [UnpackedFloat.isNaN]

/-- **A comparison holds exactly if its converse fails, between numbers.** -/
theorem lt_iff_not_le {x y : Float} :
    x < y ↔ x.isNaN = false ∧ y.isNaN = false ∧ ¬ y ≤ x := by
  rw [lt_iff_value, le_iff, isNaN_eq_false_iff, isNaN_eq_false_iff]
  constructor
  · rintro ⟨hx, hy, hlt⟩
    exact ⟨hx, hy, fun hle => hlt.not_ge hle.2.2⟩
  · rintro ⟨hx, hy, hnot⟩
    exact ⟨hx, hy, not_le.1 fun hle => hnot ⟨hy, hx, hle⟩⟩

theorem le_iff_not_lt {x y : Float} :
    x ≤ y ↔ x.isNaN = false ∧ y.isNaN = false ∧ ¬ y < x := by
  rw [lt_iff_value, le_iff, isNaN_eq_false_iff, isNaN_eq_false_iff]
  constructor
  · rintro ⟨hx, hy, hle⟩
    exact ⟨hx, hy, fun hlt => hlt.2.2.not_ge hle⟩
  · rintro ⟨hx, hy, hnot⟩
    exact ⟨hx, hy, not_lt.1 fun hlt => hnot ⟨hy, hx, hlt⟩⟩

/-! ## §3. Rounding with a largest float. -/

/-- What the float nearest to `v` stands for. -/
def closest (v : ℚ) : ℚ :=
  min (rounded v) beyond - min (rounded (-v)) beyond

theorem closest_of_nonneg {v : ℚ} (h : 0 ≤ v) : closest v = min (rounded v) beyond := by
  rw [closest, rounded_of_nonpos (neg_nonpos.2 h), min_eq_left beyond_pos.le, sub_zero]

theorem closest_factor (s : Sign) (v : ℚ) : closest (factor s * v) = factor s * closest v := by
  cases s with
  | positive => rw [factor, one_mul, one_mul]
  | negative => rw [factor, neg_one_mul, neg_one_mul, closest, closest, neg_neg, neg_sub]

theorem closest_mono {v w : ℚ} (h : v ≤ w) : closest v ≤ closest w :=
  sub_le_sub (min_le_min_right _ (rounded_mono h))
    (min_le_min_right _ (rounded_mono (neg_le_neg h)))

theorem closest_le_beyond (v : ℚ) : closest v ≤ beyond := by
  have hnonneg : 0 ≤ min (rounded (-v)) beyond := le_min (rounded_nonneg _) beyond_pos.le
  have hle : min (rounded v) beyond ≤ beyond := min_le_right _ _
  unfold closest
  linarith

/-- The infinity is the first number of 53 places beyond the finite floats. -/
theorem closest_beyond : closest beyond = beyond := by
  have hplaces : beyond = (2 ^ 52 : ℕ) * 2 ^ (972 : ℤ) := by
    rw [← two_zpow_add 52 972 52 rfl]
    exact (zpow_natCast 2 1024).symm
  have hrounded : rounded beyond = beyond := by
    rw [hplaces]
    exact rounded_of_lt (Nat.two_pow_pos 52) (by decide) (by decide)
  rw [closest_of_nonneg beyond_pos.le, hrounded, min_self]

/-- **A float is the one closest to what it stands for.** -/
theorem closest_value {u : UnpackedFloat} (hu : Representable u) :
    closest (value u) = value u := by
  have hzero : closest 0 = 0 := by
    rw [closest_of_nonneg le_rfl, rounded_of_nonpos le_rfl, min_eq_left beyond_pos.le]
  cases u with
  | notANumber => exact hzero
  | zero s => exact hzero
  | infinity s => exact (closest_factor s beyond).trans (by rw [closest_beyond]; rfl)
  | finite s m e hm =>
    have hpos : (0 : ℚ) < m * 2 ^ e := mul_pos (by exact_mod_cast hm) (zpow_pos two_pos _)
    have hclosest : closest ((m : ℚ) * 2 ^ e) = m * 2 ^ e := by
      rw [closest_of_nonneg hpos.le, rounded_of_lt hm hu.1.1 hu.1.2.1,
        min_eq_left (finite_lt hu.1.1 hu.2).le]
    exact (closest_factor s _).trans (by rw [hclosest]; rfl)

theorem nearestParts_finite (s : Sign) {v : ℚ} (h : digits v ≠ 0) :
    ∃ m e hm, nearestParts s v = .finite s m e hm ∧ (m : ℚ) * 2 ^ e = rounded v := by
  unfold nearestParts
  rw [dif_neg h]
  by_cases htop : digits v = 2 ^ 53
  · rw [if_pos htop]
    refine ⟨_, _, _, rfl, ?_⟩
    rw [rounded, htop, zpow_add_one₀ two_ne_zero]
    push_cast
    ring
  · rw [if_neg htop]
    exact ⟨_, _, _, rfl, rfl⟩

/-- **What the nearest float stands for, once it is packed.** -/
theorem value_packed_nearest (s : Sign) {v : ℚ} (hv : 0 < v) :
    packed (nearestParts s v) ≠ .notANumber
      ∧ value (packed (nearestParts s v)) = factor s * closest v := by
  rw [closest_of_nonneg hv.le]
  by_cases hzero : digits v = 0
  · have hrounded : rounded v = 0 := by rw [rounded, hzero, Nat.cast_zero, zero_mul]
    rw [nearestParts, dif_pos hzero, packed_zero, hrounded, min_eq_left beyond_pos.le, mul_zero]
    exact ⟨by simp, rfl⟩
  obtain ⟨m, e, hm, hparts, hvalue⟩ := nearestParts_finite s hzero
  have hcanonical := canonical_nearestParts s hv
  rw [hparts] at hcanonical ⊢
  obtain ⟨hlt, -, hnormal⟩ := id hcanonical
  rw [packed_of_canonical hcanonical, ← hvalue]
  by_cases he : e ≤ 971
  · rw [if_pos he, min_eq_left (finite_lt hlt he).le]
    exact ⟨by simp, rfl⟩
  · -- a mantissa of 53 bits with so large an exponent is beyond
    have hlarge : beyond ≤ m * 2 ^ e := by
      have hm' : ((2 ^ 52 : ℕ) : ℚ) ≤ m := by exact_mod_cast hnormal.resolve_left (by omega)
      calc beyond = 2 ^ ((1024 : ℕ) : ℤ) := (zpow_natCast _ _).symm
        _ ≤ 2 ^ (52 + e) := zpow_le_zpow_right₀ one_le_two (by omega)
        _ = (2 ^ 52 : ℕ) * 2 ^ e := two_zpow_add 52 e 52 rfl
        _ ≤ m * 2 ^ e := mul_le_mul_of_nonneg_right hm' (zpow_nonneg two_pos.le _)
    rw [if_neg he, min_eq_right hlarge]
    exact ⟨by simp, rfl⟩

/-! ## §4. Sums. -/

/-- What the sum of two floats stands for, neither of them the negative infinity. -/
def sumValue (v w : ℚ) : ℚ :=
  if v = beyond ∨ w = beyond then beyond else closest (v + w)

theorem sumValue_le_beyond (v w : ℚ) : sumValue v w ≤ beyond := by
  unfold sumValue
  split
  · exact le_rfl
  · exact closest_le_beyond _

theorem sumValue_mono {v v' w w' : ℚ} (hv : v ≤ v') (hw : w ≤ w') (hv' : v' ≤ beyond)
    (hw' : w' ≤ beyond) : sumValue v w ≤ sumValue v' w' := by
  by_cases htop : v' = beyond ∨ w' = beyond
  · rw [sumValue.eq_def v' w', if_pos htop]
    exact sumValue_le_beyond v w
  · have hfinite : ¬ (v = beyond ∨ w = beyond) := by
      rintro (rfl | rfl)
      · exact htop (.inl (hv'.antisymm hv))
      · exact htop (.inr (hw'.antisymm hw))
    rw [sumValue, sumValue, if_neg htop, if_neg hfinite]
    exact closest_mono (add_le_add hv hw)

/-- A float that may be summed with others like it: not a NaN nor the negative infinity. -/
def Addable (x : Float) : Prop :=
  parts x ≠ .notANumber ∧ parts x ≠ .infinity .negative

theorem value_nearestSigned (v : ℚ) :
    packed (nearestSigned v) ≠ .notANumber ∧ value (packed (nearestSigned v)) = closest v := by
  unfold nearestSigned
  rcases lt_trichotomy v 0 with hneg | rfl | hpos
  · rw [if_neg hneg.not_gt, if_pos hneg]
    obtain ⟨hnumber, hvalue⟩ := value_packed_nearest .negative (neg_pos.2 hneg)
    refine ⟨hnumber, ?_⟩
    rw [hvalue, ← closest_factor, factor, neg_one_mul, neg_neg]
  · rw [if_neg (by norm_num), if_neg (by norm_num), packed_zero]
    exact ⟨by simp, (closest_value (u := .zero .positive) trivial).symm⟩
  · rw [if_pos hpos]
    obtain ⟨hnumber, hvalue⟩ := value_packed_nearest .positive hpos
    exact ⟨hnumber, by rw [hvalue, factor, one_mul]⟩

theorem value_le_beyond {u : UnpackedFloat} (hu : Representable u) : value u ≤ beyond := by
  rw [← closest_value hu]
  exact closest_le_beyond _

/-- Only the infinity is beyond. -/
theorem value_finite_ne_beyond {s : Sign} {m : Nat} {e : Int} {hm : 0 < m}
    (hu : Representable (.finite s m e hm)) : value (.finite s m e hm) ≠ beyond := by
  have hpos : (0 : ℚ) < m * 2 ^ e := mul_pos (by exact_mod_cast hm) (zpow_pos two_pos _)
  have hlt := finite_lt hu.1.1 hu.2
  have htop := beyond_pos
  intro h
  cases s <;> simp only [value, factor] at h <;> linarith

theorem sumValue_of_ne {v w : ℚ} (hv : v ≠ beyond) (hw : w ≠ beyond) :
    sumValue v w = closest (v + w) := by
  rw [sumValue, if_neg (not_or.2 ⟨hv, hw⟩)]

theorem packed_of_representable {u : UnpackedFloat} (hu : Representable u) : packed u = u := by
  cases u with
  | notANumber => rfl
  | infinity s => exact packed_infinity s
  | zero s => exact packed_zero s
  | finite s m e hm => rw [packed_of_canonical hu.1, if_pos hu.2]

/-- **What a sum stands for.** -/
theorem value_add_parts {u v : UnpackedFloat} (hu : Representable u) (hv : Representable v)
    (hun : u ≠ .notANumber ∧ u ≠ .infinity .negative)
    (hvn : v ≠ .notANumber ∧ v ≠ .infinity .negative) :
    packed (UnpackedFloat.add Format.binary64 u v) ≠ .notANumber
      ∧ value (packed (UnpackedFloat.add Format.binary64 u v)) = sumValue (value u) (value v) := by
  have htop : value (.infinity .positive) = beyond := one_mul _
  have hzero : ∀ s, value (.zero s) ≠ beyond := fun s => beyond_pos.ne
  -- an infinity stays, and so does a sum with a zero
  have hinfinite : ∀ a b, a = beyond ∨ b = beyond → packed (.infinity .positive) ≠ .notANumber
      ∧ value (packed (.infinity .positive)) = sumValue a b := by
    intro a b h
    rw [packed_infinity, htop, sumValue, if_pos h]
    exact ⟨by simp, rfl⟩
  have hsame : ∀ w, Representable w → w ≠ .notANumber → value w ≠ beyond →
      packed w ≠ .notANumber ∧ value (packed w) = closest (value w) := by
    intro w hw hnumber hfinite
    rw [packed_of_representable hw, closest_value hw]
    exact ⟨hnumber, rfl⟩
  cases u with
  | notANumber => exact absurd rfl hun.1
  | infinity s =>
    cases s with
    | negative => exact absurd rfl hun.2
    | positive =>
      cases v with
      | notANumber => exact absurd rfl hvn.1
      | infinity t =>
        cases t with
        | negative => exact absurd rfl hvn.2
        | positive => exact hinfinite _ _ (.inl htop)
      | zero t => exact hinfinite _ _ (.inl htop)
      | finite t n f hn => exact hinfinite _ _ (.inl htop)
  | zero s =>
    cases v with
    | notANumber => exact absurd rfl hvn.1
    | infinity t =>
      cases t with
      | negative => exact absurd rfl hvn.2
      | positive => exact hinfinite _ _ (.inr htop)
    | zero t =>
      obtain ⟨r, hsum⟩ : ∃ r, UnpackedFloat.add Format.binary64 (.zero s) (.zero t) = .zero r := by
        cases s <;> cases t <;> exact ⟨_, rfl⟩
      rw [sumValue_of_ne (hzero s) (hzero t), hsum, value.eq_def (.zero s), zero_add]
      exact hsame _ trivial (by simp) (hzero r)
    | finite t n f hn =>
      have hfinite := value_finite_ne_beyond hv
      rw [sumValue_of_ne (hzero s) hfinite, value, zero_add]
      exact hsame _ hv hvn.1 hfinite
  | finite s m e hm =>
    have hfinite := value_finite_ne_beyond hu
    cases v with
    | notANumber => exact absurd rfl hvn.1
    | infinity t =>
      cases t with
      | negative => exact absurd rfl hvn.2
      | positive => exact hinfinite _ _ (.inr htop)
    | zero t =>
      rw [sumValue_of_ne hfinite (hzero t), value.eq_def (.zero t), add_zero]
      exact hsame _ hu hun.1 hfinite
    | finite t n f hn =>
      rw [sumValue_of_ne hfinite (value_finite_ne_beyond hv), add_finite]
      exact value_nearestSigned _

theorem value_add {x y : Float} (hx : Addable x) (hy : Addable y) :
    parts (x + y) ≠ .notANumber
      ∧ value (parts (x + y)) = sumValue (value (parts x)) (value (parts y)) :=
  value_add_parts (representable_parts x) (representable_parts y) hx hy

theorem value_parts_le (x : Float) : value (parts x) ≤ beyond :=
  value_le_beyond (representable_parts x)

/-! ## §5. Adding what is not negative. -/

theorem parts_zero : parts (0 : Float) = .zero .positive :=
  rfl

theorem nonneg_iff {x : Float} : 0 ≤ x ↔ parts x ≠ .notANumber ∧ 0 ≤ value (parts x) := by
  rw [le_iff, parts_zero]
  constructor
  · rintro ⟨-, hnumber, hvalue⟩
    exact ⟨hnumber, hvalue⟩
  · rintro ⟨hnumber, hvalue⟩
    exact ⟨by simp, hnumber, hvalue⟩

theorem nonneg_zero : (0 : Float) ≤ 0 := by
  decide

theorem addable_iff {x : Float} :
    Addable x ↔ parts x ≠ .notANumber ∧ -beyond < value (parts x) := by
  have htop := beyond_pos
  have hinfinity : value (.infinity .negative) = -beyond := neg_one_mul _
  unfold Addable
  constructor
  · rintro ⟨hnumber, hfinite⟩
    refine ⟨hnumber, ?_⟩
    have hrep := representable_parts x
    cases hx : parts x with
    | notANumber => exact absurd hx hnumber
    | infinity s =>
      cases s with
      | negative => exact absurd hx hfinite
      | positive =>
        simp only [value, factor]
        linarith
    | zero s =>
      simp only [value]
      linarith
    | finite s m e hm =>
      rw [hx] at hrep
      have hpos : (0 : ℚ) < m * 2 ^ e := mul_pos (by exact_mod_cast hm) (zpow_pos two_pos _)
      have hlt := finite_lt hrep.1.1 hrep.2
      cases s <;> simp only [value, factor] <;> linarith
  · rintro ⟨hnumber, hvalue⟩
    refine ⟨hnumber, ?_⟩
    intro h
    rw [h, hinfinity] at hvalue
    exact hvalue.false

theorem addable_of_nonneg {x : Float} (h : 0 ≤ x) : Addable x := by
  obtain ⟨hnumber, hvalue⟩ := nonneg_iff.1 h
  exact addable_iff.2 ⟨hnumber, (neg_lt_zero.2 beyond_pos).trans_le hvalue⟩

theorem le_refl {x : Float} (hx : Addable x) : x ≤ x :=
  le_iff.2 ⟨hx.1, hx.1, le_rfl⟩

theorem beq_refl {x : Float} (hx : Addable x) : (x == x) = true :=
  beq_iff.2 ⟨hx.1, hx.1, rfl⟩

theorem beq_trans {x y z : Float} (h : (x == y) = true) (h' : (y == z) = true) :
    (x == z) = true := by
  obtain ⟨hx, -, hxy⟩ := beq_iff.1 h
  obtain ⟨-, hz, hyz⟩ := beq_iff.1 h'
  exact beq_iff.2 ⟨hx, hz, hxy.trans hyz⟩

theorem Addable.isNaN {x : Float} (hx : Addable x) : x.isNaN = false :=
  isNaN_eq_false_iff.2 hx.1

theorem addable_of_isFinite {x : Float} (h : x.isFinite = true) : Addable x := by
  have hfinite : (parts x).isFinite = true := h
  constructor
  · intro hparts
    rw [hparts] at hfinite
    cases hfinite
  · intro hparts
    rw [hparts] at hfinite
    cases hfinite

/-- What may be added to is finite, or the positive infinity. -/
theorem Addable.isFinite_iff {x : Float} (hx : Addable x) :
    x.isFinite = true ↔ x.isInf = false := by
  show (parts x).isFinite = true ↔ (parts x).isInf = false
  cases hparts : parts x with
  | notANumber => exact absurd hparts hx.1
  | infinity s => exact ⟨nofun, nofun⟩
  | zero s => exact ⟨fun _ => rfl, fun _ => rfl⟩
  | finite s m e hm => exact ⟨fun _ => rfl, fun _ => rfl⟩

/-- What may be added to is finite below the positive infinity. -/
theorem Addable.isFinite_of_lt {x : Float} (hx : Addable x) (h : value (parts x) < beyond) :
    x.isFinite = true := by
  show (parts x).isFinite = true
  cases hparts : parts x with
  | notANumber => exact absurd hparts hx.1
  | infinity s =>
    cases s with
    | positive =>
      rw [hparts, value, factor, one_mul] at h
      exact h.false.elim
    | negative => exact absurd hparts hx.2
  | zero s => rfl
  | finite s m e hm => rfl

theorem sumValue_zero {x : Float} : sumValue (value (parts x)) 0 = value (parts x) := by
  by_cases htop : value (parts x) = beyond
  · rw [sumValue, if_pos (.inl htop), htop]
  · rw [sumValue_of_ne htop beyond_pos.ne, add_zero, closest_value (representable_parts x)]

section

variable {x y e : Float}

/-- **Adding what is not negative makes no float smaller.** -/
theorem le_add (hx : Addable x) (he : 0 ≤ e) : x ≤ x + e := by
  obtain ⟨-, hvalue⟩ := nonneg_iff.1 he
  obtain ⟨hnumber, hsum⟩ := value_add hx (addable_of_nonneg he)
  refine le_iff.2 ⟨hx.1, hnumber, ?_⟩
  rw [hsum]
  calc value (parts x) = sumValue (value (parts x)) 0 := sumValue_zero.symm
    _ ≤ sumValue (value (parts x)) (value (parts e)) :=
      sumValue_mono le_rfl hvalue (value_parts_le x) (value_parts_le e)

/-- **Adding one float keeps the order.** -/
theorem add_le_add (hx : Addable x) (h : x ≤ y) (he : 0 ≤ e) : x + e ≤ y + e := by
  obtain ⟨-, hy, hle⟩ := le_iff.1 h
  have haddable : Addable y :=
    addable_iff.2 ⟨hy, (addable_iff.1 hx).2.trans_le hle⟩
  obtain ⟨hnumber, hsum⟩ := value_add hx (addable_of_nonneg he)
  obtain ⟨hnumber', hsum'⟩ := value_add haddable (addable_of_nonneg he)
  refine le_iff.2 ⟨hnumber, hnumber', ?_⟩
  rw [hsum, hsum']
  exact sumValue_mono hle le_rfl (value_parts_le y) (value_parts_le e)

theorem Addable.add (hx : Addable x) (he : 0 ≤ e) : Addable (x + e) := by
  obtain ⟨-, hnumber, hle⟩ := le_iff.1 (le_add hx he)
  exact addable_iff.2 ⟨hnumber, (addable_iff.1 hx).2.trans_le hle⟩

/-- **Adding nothing leaves a float numerically as it was.** -/
theorem add_zero_beq (hx : Addable x) {s : Sign} (he : parts e = .zero s) :
    (x + e == x) = true := by
  have hnonneg : 0 ≤ e := nonneg_iff.2 (by rw [he]; exact ⟨by simp, le_rfl⟩)
  obtain ⟨hnumber, hsum⟩ := value_add hx (addable_of_nonneg hnonneg)
  refine beq_iff.2 ⟨hnumber, hx.1, ?_⟩
  rw [hsum, he]
  exact sumValue_zero

end

/-! ## §6. The energy between two powers. -/

/-- The shapes of a float that is not below zero. -/
theorem nonneg_shapes {x : Float} (h : 0 ≤ x) :
    (∃ s, parts x = .zero s) ∨ (∃ m e hm, parts x = .finite .positive m e hm)
      ∨ parts x = .infinity .positive := by
  obtain ⟨hnumber, hvalue⟩ := nonneg_iff.1 h
  cases hx : parts x with
  | notANumber => exact absurd hx hnumber
  | zero s => exact .inl ⟨s, rfl⟩
  | infinity s =>
    cases s with
    | positive => exact .inr (.inr rfl)
    | negative =>
      rw [hx, value, factor, neg_one_mul] at hvalue
      exact absurd beyond_pos (not_lt.2 (neg_nonneg.1 hvalue))
  | finite s m e hm =>
    cases s with
    | positive => exact .inr (.inl ⟨m, e, hm, rfl⟩)
    | negative =>
      have hpos : (0 : ℚ) < m * 2 ^ e := mul_pos (by exact_mod_cast hm) (zpow_pos two_pos _)
      rw [hx, value, factor, neg_one_mul] at hvalue
      exact absurd hpos (not_lt.2 (neg_nonneg.1 hvalue))

theorem nonneg_of_parts {x : Float} {u : UnpackedFloat} (hx : parts x = packed u)
    (hu : (∃ s, u = .zero s) ∨ u = .infinity .positive
      ∨ ∃ v, 0 < v ∧ u = nearestParts .positive v) : 0 ≤ x := by
  rw [nonneg_iff, hx]
  rcases hu with ⟨s, rfl⟩ | rfl | ⟨v, hv, rfl⟩
  · rw [packed_zero]
    exact ⟨by simp, le_rfl⟩
  · rw [packed_infinity, value, factor, one_mul]
    exact ⟨by simp, beyond_pos.le⟩
  · obtain ⟨hnumber, hvalue⟩ := value_packed_nearest .positive hv
    refine ⟨hnumber, ?_⟩
    rw [hvalue, factor, one_mul, closest_of_nonneg hv.le]
    exact le_min (rounded_nonneg v) beyond_pos.le

section

variable {x y : Float} {n : Nat} {f : Int} {hn : 0 < n}

theorem nonneg_add (hx : 0 ≤ x) (hy : 0 ≤ y) : 0 ≤ x + y :=
  le_trans hx (le_add (addable_of_nonneg hx) hy)

theorem nonneg_mul (hx : 0 ≤ x) (hy : parts y = .finite .positive n f hn) : 0 ≤ x * y := by
  rcases nonneg_shapes hx with ⟨s, hx⟩ | ⟨m, e, hm, hx⟩ | hx
  · apply nonneg_of_parts (parts_mul x y)
    rw [hx, hy]
    exact .inl ⟨_, rfl⟩
  · apply nonneg_of_parts (parts_mul_finite hx hy)
    have hm' : (0 : ℚ) < m := by exact_mod_cast hm
    have hn' : (0 : ℚ) < n := by exact_mod_cast hn
    exact .inr (.inr ⟨_, by positivity, rfl⟩)
  · apply nonneg_of_parts (parts_mul x y)
    rw [hx, hy]
    exact .inr (.inl rfl)

theorem nonneg_div (hx : 0 ≤ x) (hy : parts y = .finite .positive n f hn) : 0 ≤ x / y := by
  rcases nonneg_shapes hx with ⟨s, hx⟩ | ⟨m, e, hm, hx⟩ | hx
  · apply nonneg_of_parts (parts_div x y)
    rw [hx, hy]
    exact .inl ⟨_, rfl⟩
  · apply nonneg_of_parts (parts_div_finite hx hy)
    have hm' : (0 : ℚ) < m := by exact_mod_cast hm
    have hn' : (0 : ℚ) < n := by exact_mod_cast hn
    exact .inr (.inr ⟨_, by positivity, rfl⟩)
  · apply nonneg_of_parts (parts_div x y)
    rw [hx, hy]
    exact .inr (.inl rfl)

end

theorem parts_two : parts (Scalar.ofInt 2 : Float)
    = .finite .positive 4503599627370496 (-51) (by decide) :=
  rfl

/-- A finite float above zero. -/
theorem finite_of_pos {x : Float} {top : Int} (hx : Within top (parts x)) (hpos : 0 < x) :
    ∃ m e hm, parts x = .finite .positive m e hm := by
  obtain ⟨-, -, hvalue⟩ := lt_iff_value.1 hpos
  rcases nonneg_shapes (le_of_lt hpos) with ⟨s, hzero⟩ | hfinite | hinfinite
  · rw [hzero, parts_zero] at hvalue
    exact absurd hvalue (by simp [value])
  · exact hfinite
  · rw [hinfinite] at hx
    exact hx.elim

/-- **The energy between two powers that are not negative is not negative**, over any
time that runs forwards. -/
theorem trapezoid_nonneg {p q : Float} {later earlier : Instant} (hp : 0 ≤ p) (hq : 0 ≤ q)
    (hhours : 0 < (hoursOfSpan (later.since earlier) : Float)) :
    0 ≤ trapezoid p q (hoursOfSpan (later.since earlier)) := by
  obtain ⟨n, f, hn, hparts⟩ :=
    finite_of_pos (within_hours (Instant.wholeMillis_since_lt later earlier)) hhours
  exact nonneg_mul (nonneg_div (nonneg_add hp hq) parts_two) hparts

end HeatMeter.FloatLaws
