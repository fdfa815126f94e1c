/-
  HeatMeter.Proofs.Decimal.DataText
  ─────────────────────────────────
  **A FINITE FLOAT IS READ BACK FROM ITS DATA TEXT, BIT FOR BIT.**

  The data text of a float is a number of the data grammar, with a fraction or an
  exponent always, and its value is that of the digits written.  These digits round to
  the float, and a number is read as the float nearest to its value:

      positional_eq, scientific_eq   the two layouts, part by part
      toFloat_shortest               the digits are read as the float
      read_floatNumber               the parts written are read as the float
-/
import HeatMeter.Decimal.Layout
import HeatMeter.Proofs.Decimal.Shortest
import HeatMeter.Proofs.Decimal.ToFloat
import HeatMeter.Proofs.Json.Number

namespace HeatMeter

namespace FloatLaws

open Float.Model Float.Model.UnpackedFloat

/-! ## §1. A float is known by its parts. -/

/-- **Floats with the same parts are the same.** -/
theorem eq_of_parts {x y : Float} (h : parts x = parts y) : x = y := by
  obtain ⟨⟨a, ha⟩⟩ := x
  obtain ⟨⟨b, hb⟩⟩ := y
  have hbits : a.toBitVec = b.toBitVec := by
    rw [← pack_unpack_of_valid ha, ← pack_unpack_of_valid hb]
    exact congrArg (UnpackedFloat.pack Format.binary64) h
  have hwords : a = b := UInt64.toBitVec_inj.1 hbits
  subst hwords
  rfl

/-- Positive parts in range are known by what they stand for. -/
theorem finite_eq_of_value {m n : Nat} {e f : Int} {hm : 0 < m} {hn : 0 < n}
    (hx : Canonical (.finite .positive m e hm)) (hy : Canonical (.finite .positive n f hn))
    (h : (m : ℚ) * 2 ^ e = n * 2 ^ f) :
    UnpackedFloat.finite .positive m e hm = .finite .positive n f hn := by
  have hcompare := compare_mantissas hx hy
  rw [h, cmp_self_eq_eq, Ordering.then_eq_eq] at hcompare
  exact finite_congr .positive (Nat.compare_eq_eq.1 hcompare.2) (Int.compare_eq_eq.1 hcompare.1) _ _

/-- What rounds to a float in range is read as it. -/
theorem packed_nearest_eq {m : Nat} {e : Int} {hm : 0 < m} {v : ℚ} (hv : 0 < v)
    (hfinite : Representable (.finite .positive m e hm)) (h : rounded v = m * 2 ^ e) :
    packed (nearestParts .positive v) = .finite .positive m e hm := by
  have hpos : (0 : ℚ) < m * 2 ^ e := mul_pos (by exact_mod_cast hm) (zpow_pos two_pos _)
  have hdigits : digits v ≠ 0 := by
    intro hzero
    rw [rounded, hzero, Nat.cast_zero, zero_mul] at h
    exact hpos.ne h
  obtain ⟨n, f, hn, hparts, hvalue⟩ := nearestParts_finite .positive hdigits
  have hcanonical := canonical_nearestParts .positive hv
  rw [hparts] at hcanonical ⊢
  rw [finite_eq_of_value hcanonical hfinite.1 (hvalue.trans h)]
  exact packed_of_representable hfinite

end FloatLaws

namespace Decimal

open FloatLaws Json Text

/-! ## §2. The two layouts. -/

/-- The parts of a decimal in positional layout. -/
def positionalNumber (d : Digits) : NumberText :=
  let ds := decimal d.digits
  let places := (-d.exponent).toNat
  if 0 ≤ d.exponent then ⟨ds ++ List.replicate d.exponent.toNat '0', some ['0'], none⟩
  else if places < ds.length then
    ⟨ds.take (ds.length - places), some (ds.drop (ds.length - places)), none⟩
  else ⟨['0'], some (List.replicate (places - ds.length) '0' ++ ds), none⟩

/-- The parts of a decimal in scientific layout. -/
def scientificNumber (d : Digits) : NumberText :=
  let ds := decimal d.digits
  ⟨ds.take 1, if ds.length = 1 then none else some (ds.drop 1),
    some (decide (d.leading < 0), decimal d.leading.natAbs)⟩

theorem positional_eq (d : Digits) : positional d ".0".toList = (positionalNumber d).text := by
  unfold positional positionalNumber NumberText.text NumberText.fractionText
    NumberText.exponentText
  dsimp only
  by_cases hwhole : 0 ≤ d.exponent
  · rw [if_pos hwhole, if_pos hwhole]
    rfl
  · rw [if_neg hwhole, if_neg hwhole]
    by_cases hinside : (-d.exponent).toNat < (decimal d.digits).length
    · rw [if_pos hinside, if_pos hinside]
      dsimp only
      rw [List.append_nil]
    · rw [if_neg hinside, if_neg hinside]
      dsimp only
      rw [List.append_nil]
      rfl

/-- The first digit of a number, and the others. -/
theorem decimal_cons (n : Nat) : ∃ c cs, decimal n = c :: cs :=
  List.exists_cons_of_ne_nil (decimal_ne_nil n)

theorem scientific_eq (d : Digits) : scientific d = (scientificNumber d).text := by
  obtain ⟨c, cs, hds⟩ := decimal_cons d.digits
  have hsign : (if d.leading < 0 then '-' else '+')
      = if decide (d.leading < 0) = true then '-' else '+' := by
    by_cases hneg : d.leading < 0
    · rw [if_pos hneg, if_pos (decide_eq_true hneg)]
    · rw [if_neg hneg, if_neg (by rw [decide_eq_true_eq]; exact hneg)]
  unfold scientific scientificNumber
  dsimp only
  rw [hds, hsign]
  cases cs with
  | nil => rfl
  | cons c' cs => rfl

/-- The value of a number as it is written. -/
def numberValue (t : NumberText) : ℚ :=
  digitsValue (t.whole ++ t.fraction.getD [])
    * 10 ^ (NumberText.exponentValue t.exponent - (t.fraction.getD []).length)

theorem numberValue_positional (d : Digits) : numberValue (positionalNumber d) = d.value := by
  unfold positionalNumber numberValue Digits.value NumberText.exponentValue
  dsimp only
  by_cases hwhole : 0 ≤ d.exponent
  · have hzeros : digitsValue (decimal d.digits ++ List.replicate d.exponent.toNat '0' ++ ['0'])
        = d.digits * 10 ^ d.exponent.toNat * 10 := by
      rw [digitsValue_append, digitsValue_append, digitsValue_decimal, digitsValue_zeros,
        List.length_replicate]
      rfl
    have hpower : (10 : ℚ) ^ d.exponent.toNat = 10 ^ d.exponent := by
      rw [← zpow_natCast, Int.toNat_of_nonneg hwhole]
    rw [if_pos hwhole]
    dsimp only
    rw [Option.getD_some, hzeros]
    push_cast
    rw [hpower]
    norm_num
    ring
  · rw [if_neg hwhole]
    by_cases hinside : (-d.exponent).toNat < (decimal d.digits).length
    · rw [if_pos hinside]
      dsimp only
      rw [Option.getD_some, List.take_append_drop, digitsValue_decimal, List.length_drop]
      congr 2
      omega
    · rw [if_neg hinside]
      dsimp only
      have hzeros : digitsValue (['0'] ++ (List.replicate
          ((-d.exponent).toNat - (decimal d.digits).length) '0' ++ decimal d.digits))
            = d.digits := by
        rw [digitsValue_append, digitsValue_append, digitsValue_decimal, digitsValue_zeros,
          Nat.zero_mul, Nat.zero_add]
        exact (congrArg (· + _) (Nat.zero_mul _)).trans (Nat.zero_add _)
      rw [Option.getD_some, hzeros, List.length_append, List.length_replicate]
      congr 2
      omega

theorem numberValue_scientific (d : Digits) : numberValue (scientificNumber d) = d.value := by
  have hsign : NumberText.exponentValue (some (decide (d.leading < 0), decimal d.leading.natAbs))
      = d.leading := by
    unfold NumberText.exponentValue
    dsimp only
    rw [digitsValue_decimal]
    split
    next hneg =>
      have := of_decide_eq_true hneg
      omega
    next hneg =>
      have : ¬ d.leading < 0 := by simpa using hneg
      omega
  obtain ⟨c, cs, hds⟩ := decimal_cons d.digits
  have hdigits : (decimal d.digits).take 1
        ++ (if (decimal d.digits).length = 1 then none
            else some ((decimal d.digits).drop 1)).getD [] = decimal d.digits
      ∧ ((if (decimal d.digits).length = 1 then none
            else some ((decimal d.digits).drop 1)).getD []).length
          = (decimal d.digits).length - 1 := by
    rw [hds]
    cases cs with
    | nil => exact ⟨rfl, rfl⟩
    | cons c' cs => exact ⟨rfl, rfl⟩
  have hpos : 0 < (decimal d.digits).length := Nat.length_toDigits_pos
  unfold scientificNumber numberValue Digits.value
  dsimp only
  rw [hsign, hdigits.1, hdigits.2, digitsValue_decimal]
  congr 2
  unfold Digits.leading
  omega

theorem wellFormed_positional {d : Digits} (hd : 0 < d.digits) :
    (positionalNumber d).WellFormed := by
  have hall := allDigits_decimal d.digits
  have hhead := head?_decimal hd
  have hne := decimal_ne_nil d.digits
  unfold positionalNumber
  dsimp only
  by_cases hwhole : 0 ≤ d.exponent
  · rw [if_pos hwhole]
    refine ⟨?_, hall.append (allDigits_zeros _), ?_, ?_, by simp⟩
    · exact List.append_ne_nil_of_left_ne_nil hne _
    · dsimp only
      rw [List.head?_append_of_ne_nil _ hne]
      intro hzero
      exact absurd hzero hhead
    · intro ds hds
      rw [Option.mem_some_iff] at hds
      rw [← hds]
      exact ⟨by simp, allDigits_zeros 1⟩
  · rw [if_neg hwhole]
    by_cases hinside : (-d.exponent).toNat < (decimal d.digits).length
    · -- the point stands inside the digits
      rw [if_pos hinside]
      refine ⟨?_, hall.take _, ?_, ?_, by simp⟩
      · dsimp only
        rw [← List.length_pos_iff, List.length_take]
        omega
      · dsimp only
        rw [List.head?_take, if_neg (by omega)]
        intro hzero
        exact absurd hzero hhead
      · intro ds hds
        rw [Option.mem_some_iff] at hds
        rw [← hds]
        refine ⟨?_, hall.drop _⟩
        rw [← List.length_pos_iff, List.length_drop]
        omega
    · rw [if_neg hinside]
      refine ⟨by simp, allDigits_zeros 1, fun _ => rfl, ?_, by simp⟩
      intro ds hds
      rw [Option.mem_some_iff] at hds
      rw [← hds]
      exact ⟨List.append_ne_nil_of_right_ne_nil _ hne, (allDigits_zeros _).append hall⟩

theorem wellFormed_scientific {d : Digits} (hd : 0 < d.digits) :
    (scientificNumber d).WellFormed := by
  have hall := allDigits_decimal d.digits
  have hhead := head?_decimal hd
  have hpos : 0 < (decimal d.digits).length := Nat.length_toDigits_pos
  unfold scientificNumber
  dsimp only
  refine ⟨?_, hall.take 1, ?_, ?_, ?_⟩
  · dsimp only
    rw [← List.length_pos_iff, List.length_take]
    omega
  · dsimp only
    rw [List.head?_take, if_neg (by omega)]
    intro hzero
    exact absurd hzero hhead
  · intro ds hds
    dsimp only at hds
    split at hds
    next => cases hds
    next hlong =>
      rw [Option.mem_some_iff] at hds
      rw [← hds]
      refine ⟨?_, hall.drop 1⟩
      rw [← List.length_pos_iff, List.length_drop]
      omega
  · intro e he
    rw [Option.mem_some_iff] at he
    rw [← he]
    exact ⟨decimal_ne_nil _, allDigits_decimal _⟩

/-! ## §3. Reading the digits. -/

open Float.Model Float.Model.UnpackedFloat

/-- The value of the digits written is positive and rounds to the float. -/
theorem shortest_value (tie : Tie) {m : Nat} {e : Int} {hm : 0 < m}
    (hfinite : Representable (.finite .positive m e hm)) :
    0 < (shortest tie m e).value ∧ rounded (shortest tie m e).value = m * 2 ^ e := by
  obtain ⟨⟨hlt, hmin, hnormal⟩, -⟩ := hfinite
  have hunit : (0 : ℚ) < 2 ^ e := zpow_pos two_pos _
  have hrounded := rounded_eq hm hlt hmin hnormal (shortest_rounds tie hm hlt hmin)
  rw [div_mul_cancel₀ _ hunit.ne'] at hrounded
  refine ⟨?_, hrounded⟩
  by_contra hle
  rw [rounded_of_nonpos (not_lt.1 hle)] at hrounded
  have hfloat : (0 : ℚ) < m * 2 ^ e := mul_pos (by exact_mod_cast hm) hunit
  exact hfloat.ne hrounded

theorem shortest_digits_pos (tie : Tie) {m : Nat} {e : Int} {hm : 0 < m}
    (hfinite : Representable (.finite .positive m e hm)) : 0 < (shortest tie m e).digits := by
  apply Nat.pos_of_ne_zero
  intro hzero
  have hpos := (shortest_value tie hfinite).1
  rw [Digits.value, hzero, Nat.cast_zero, zero_mul] at hpos
  exact hpos.false

/-- **A decimal of the value of the digits is read as the float.** -/
theorem toFloat_shortest {tie : Tie} {m : Nat} {e : Int} {hm : 0 < m} {n : Nat} {g : Int}
    (hfinite : Representable (.finite .positive m e hm))
    (h : (n : ℚ) * 10 ^ g = (shortest tie m e).value) :
    parts (toFloat n g) = .finite .positive m e hm := by
  obtain ⟨hpos, hrounded⟩ := shortest_value tie hfinite
  rw [← h] at hpos hrounded
  have hn : 0 < n := by
    apply Nat.pos_of_ne_zero
    rintro rfl
    rw [Nat.cast_zero, zero_mul] at hpos
    exact hpos.false
  rw [parts_toFloat hn, packed_nearest_eq hpos hfinite hrounded]

/-! ## §4. The data text. -/

/-- The parts of a decimal in data layout. -/
def dataNumber (d : Digits) : NumberText :=
  if -5 ≤ d.leading ∧ d.leading < 16 then positionalNumber d else scientificNumber d

theorem wellFormed_dataNumber {d : Digits} (hd : 0 < d.digits) : (dataNumber d).WellFormed := by
  unfold dataNumber
  split
  · exact wellFormed_positional hd
  · exact wellFormed_scientific hd

theorem numberValue_dataNumber (d : Digits) : numberValue (dataNumber d) = d.value := by
  unfold dataNumber
  split
  · exact numberValue_positional d
  · exact numberValue_scientific d

/-- A number in data layout has a fraction or an exponent, and so is read as a real. -/
theorem read_dataNumber (negative : Bool) (d : Digits) :
    (dataNumber d).read negative = .real (withSign negative
      (assemble (dataNumber d).whole ((dataNumber d).fraction.getD [])
        (NumberText.exponentValue (dataNumber d).exponent))) := by
  unfold dataNumber
  split
  · unfold positionalNumber
    dsimp only
    split
    · rfl
    · split
      · rfl
      · rfl
  · unfold scientificNumber
    dsimp only
    split
    · rfl
    · rfl

theorem data?_of_finite {x : Float} {s : Sign} {m : Nat} {e : Int} {hm : 0 < m}
    (hx : parts x = .finite s m e hm) :
    data? x = some (signedText (s == .negative) (dataNumber (shortest .even m e)).text) := by
  have hunpack : x.toModel.unpack = .finite s m e hm := hx
  unfold data? dataNumber
  rw [hunpack]
  dsimp only
  split
  · rw [positional_eq]
  · rw [scientific_eq]

/-- The parts of the data text of a float. -/
def floatNumber (x : Float) : NumberText :=
  match parts x with
  | .finite _ m e _ => dataNumber (shortest .even m e)
  | _ => ⟨['0'], some ['0'], none⟩

/-- Whether the data text of a float has a sign. -/
def isSigned (x : Float) : Bool :=
  match parts x with
  | .finite s .. | .zero s => s == .negative
  | _ => false

theorem data?_of_isFinite {x : Float} (h : x.isFinite = true) :
    data? x = some (signedText (isSigned x) (floatNumber x).text) := by
  have hfinite : (parts x).isFinite = true := h
  unfold isSigned floatNumber
  cases hx : parts x with
  | notANumber =>
    rw [hx] at hfinite
    cases hfinite
  | infinity s =>
    rw [hx] at hfinite
    cases hfinite
  | zero s =>
    have hunpack : x.toModel.unpack = .zero s := hx
    unfold data?
    rw [hunpack]
    rfl
  | finite s m e hm => exact data?_of_finite hx

theorem data?_of_not_isFinite {x : Float} (h : x.isFinite = false) : data? x = none := by
  have hfinite : (parts x).isFinite = false := h
  unfold data?
  cases hx : parts x with
  | notANumber =>
    have hunpack : x.toModel.unpack = .notANumber := hx
    rw [hunpack]
  | infinity s =>
    have hunpack : x.toModel.unpack = .infinity s := hx
    rw [hunpack]
  | zero s =>
    rw [hx] at hfinite
    cases hfinite
  | finite s m e hm =>
    rw [hx] at hfinite
    cases hfinite

theorem wellFormed_floatNumber (x : Float) : (floatNumber x).WellFormed := by
  unfold floatNumber
  have hrep := representable_parts x
  split
  next s m e hm hx =>
    rw [hx] at hrep
    have hrep : Representable (.finite .positive m e hm) := hrep
    exact wellFormed_dataNumber (shortest_digits_pos .even hrep)
  next =>
    refine ⟨by simp, allDigits_zeros 1, fun _ => rfl, ?_, by simp⟩
    intro ds hds
    rw [Option.mem_some_iff] at hds
    rw [← hds]
    exact ⟨by simp, allDigits_zeros 1⟩

/-- **The parts written are read as the float.** -/
theorem read_floatNumber {x : Float} (h : x.isFinite = true) :
    (floatNumber x).read (isSigned x) = .real x := by
  have hfinite : (parts x).isFinite = true := h
  have hrep := representable_parts x
  unfold floatNumber isSigned
  cases hx : parts x with
  | notANumber =>
    rw [hx] at hfinite
    cases hfinite
  | infinity s =>
    rw [hx] at hfinite
    cases hfinite
  | zero s =>
    have hzero : parts (assemble ['0'] ['0'] 0) = .zero .positive := rfl
    show Json.real (withSign (s == .negative) (assemble ['0'] ['0'] 0)) = .real x
    congr 1
    apply eq_of_parts
    rw [hx]
    cases s with
    | positive => exact hzero
    | negative =>
      show parts (-(assemble ['0'] ['0'] 0)) = _
      rw [parts_neg, hzero]
      rfl
  | finite s m e hm =>
    rw [hx] at hrep
    dsimp only
    have hparts : parts (assemble (dataNumber (shortest .even m e)).whole
        ((dataNumber (shortest .even m e)).fraction.getD [])
        (NumberText.exponentValue (dataNumber (shortest .even m e)).exponent))
          = .finite .positive m e hm :=
      toFloat_shortest hrep (numberValue_dataNumber (shortest .even m e))
    rw [read_dataNumber]
    congr 1
    apply eq_of_parts
    rw [hx]
    cases s with
    | positive => exact hparts
    | negative =>
      show parts (-(assemble _ _ _)) = _
      rw [parts_neg, hparts]
      exact packed_of_representable hrep

end Decimal

end HeatMeter
