/-
  HeatMeter.Proofs.Time.Calendar
  ──────────────────────────────
  **A DAY HAS A YEAR, A MONTH AND A DAY OF THE MONTH, AND THEY NAME IT.**

  The cycle of 400 years is cut into years that begin in March, and each of these into
  months.  The year of a day is computed by a quotient that grows with the day, so it is
  enough to know it on the first and the last day of each year:

      yearOf_eq       the year of a day of the cycle
      months          the month of a day of the year, and its length
      civil_names     year, month and day of a day number
-/
import HeatMeter.Time.Calendar
import Mathlib

namespace HeatMeter.Calendar

/-! ## §1. Years of the cycle. -/

/-- The day of the cycle on which a year of it begins. -/
def yearStart (year : Nat) : Nat :=
  365 * year + year / 4 - year / 100 + year / 400

/-- The year of the cycle that a day of it falls in. -/
def yearOf (day : Nat) : Nat :=
  (day - day / 1460 + day / 36524 - day / 146096) / 365

theorem yearOf_mono {day later : Nat} (h : day ≤ later) : yearOf day ≤ yearOf later := by
  induction later, h using Nat.le_induction with
  | base => exact le_rfl
  | succ later _ ih =>
    -- a day that a quotient takes away is one that another gives back, or counts itself
    refine ih.trans (Nat.div_le_div_right ?_)
    omega

theorem yearOf_ends :
    ∀ year < 400, yearOf (yearStart year) = year ∧ yearOf (yearStart (year + 1) - 1) = year := by
  decide +kernel

/-- **The year of a day is the one whose days it is among.** -/
theorem yearOf_eq {year day : Nat} (hyear : year < 400) (hfirst : yearStart year ≤ day)
    (hlast : day < yearStart (year + 1)) : yearOf day = year := by
  obtain ⟨hstart, hend⟩ := yearOf_ends year hyear
  have hlow := yearOf_mono hfirst
  have hhigh : yearOf day ≤ yearOf (yearStart (year + 1) - 1) := yearOf_mono (by omega)
  omega

/-- Every day before a year is among the days of an earlier one. -/
theorem exists_year (day n : Nat) (h : day < yearStart n) :
    ∃ year < n, yearStart year ≤ day ∧ day < yearStart (year + 1) := by
  induction n with
  | zero => exact absurd h (Nat.not_lt_zero day)
  | succ n ih =>
    by_cases hn : day < yearStart n
    · obtain ⟨year, hyear, hdays⟩ := ih hn
      exact ⟨year, hyear.trans (Nat.lt_succ_self n), hdays⟩
    · exact ⟨n, Nat.lt_succ_self n, not_lt.1 hn, h⟩

theorem isLeapYear_iff (year : Int) :
    isLeapYear year = true ↔ year % 4 = 0 ∧ (year % 100 ≠ 0 ∨ year % 400 = 0) := by
  simp only [isLeapYear, Bool.and_eq_true, Bool.or_eq_true, beq_iff_eq, bne_iff_ne]

/-- A year has at most 366 days, and more than 365 only if the calendar year that it ends
in has a leap day. -/
theorem yearStart_succ (year : Nat) : yearStart (year + 1) ≤ yearStart year + 366
    ∧ (isLeapYear (year + 1) = false → yearStart (year + 1) ≤ yearStart year + 365) := by
  have hfours : (year + 1) / 4 ≤ year / 4 + 1 := by omega
  have hhundreds : year / 100 ≤ (year + 1) / 100 := by omega
  have hcycles : (year + 1) / 400 ≤ year / 400 + 1
      ∧ (year / 400 < (year + 1) / 400 → year / 100 < (year + 1) / 100) := by omega
  unfold yearStart
  refine ⟨by omega, ?_⟩
  intro h
  have h : ¬ _ := mt (isLeapYear_iff (year + 1)).2 (by rw [h]; decide)
  rw [not_and_or, not_or, not_ne_iff] at h
  rcases h with h | ⟨h, h'⟩
  · have hfours : (year + 1) / 4 = year / 4 := by omega
    have hcycles : (year + 1) / 400 = year / 400 := by omega
    omega
  · have hhundreds : year / 100 + 1 = (year + 1) / 100 := by omega
    have hcycles : (year + 1) / 400 = year / 400 := by omega
    omega

/-! ## §2. Months of the year. -/

/-- The number of a month that is counted from March. -/
def monthOf (fromMarch : Nat) : Nat :=
  if fromMarch < 10 then fromMarch + 3 else fromMarch - 9

/-- Only the length of February depends on the year. -/
theorem monthLength_of_ne {month : Nat} (h : month ≠ 2) (year : Int) :
    monthLength year month = monthLength 0 month := by
  unfold monthLength
  split <;> first
    | rfl
    | exact absurd rfl h

/-- The month of a day of the year begins on or before it and is long enough for it, the
last day of a leap year apart. -/
theorem months : ∀ day < 366,
    (5 * day + 2) / 153 < 12
      ∧ (153 * ((5 * day + 2) / 153) + 2) / 5 ≤ day
      ∧ ((5 * day + 2) / 153 < 11 →
        day - (153 * ((5 * day + 2) / 153) + 2) / 5 < monthLength 0 (monthOf ((5 * day + 2) / 153)))
      ∧ ((5 * day + 2) / 153 = 11 →
        day - (153 * ((5 * day + 2) / 153) + 2) / 5 < if day = 365 then 29 else 28) := by
  decide +kernel

/-! ## §3. Day numbers. -/

section

variable {era : Int} {y t m : Nat}

/-- Year, month and day of the month from the cycle, its year, the day of that and the
month it lies in. -/
theorem civil_eq (hcycle : yearStart y + t < 146097) (hyear : yearOf (yearStart y + t) = y)
    (hm : (5 * t + 2) / 153 = m) (hbegins : (153 * m + 2) / 5 ≤ t) :
    civil (era * 146097 + (yearStart y + t : Nat) - 719468)
      = (y + era * 400 + (if m < 10 then 0 else 1), monthOf m, t - (153 * m + 2) / 5 + 1) := by
  generalize he : yearStart y + t = e at hcycle hyear
  have hera : (era * 146097 + (e : Int) - 719468 + 719468) / 146097 = era := by omega
  have hday : (era * 146097 + (e : Int) - 719468 + 719468) % 146097 = e := by omega
  have hyear : ((e : Int) - e / 1460 + e / 36524 - e / 146096) / 365 = y := by
    rw [yearOf] at hyear
    omega
  have hdayOfYear : (e : Int) - (365 * y + (y : Int) / 4 - (y : Int) / 100) = t := by
    rw [yearStart] at he
    omega
  have hmonth : (5 * (t : Int) + 2) / 153 = m := by omega
  have hmonthOf : (if (m : Int) < 10 then (m : Int) + 3 else m - 9) = (monthOf m : Nat) := by
    unfold monthOf
    split <;> split <;> omega
  have hcarry : (if ((monthOf m : Nat) : Int) ≤ 2 then (1 : Int) else 0)
      = if m < 10 then 0 else 1 := by
    unfold monthOf
    split <;> split <;> omega
  have hdayOfMonth : (t : Int) - (153 * m + 2) / 5 + 1 = (t - (153 * m + 2) / 5 + 1 : Nat) := by
    omega
  unfold civil
  dsimp only
  rw [hera, hday, hyear, hdayOfYear, hmonth, hmonthOf, hcarry, hdayOfMonth, Int.toNat_natCast,
    Int.toNat_natCast]

/-- The day number of a day of the month, from the same. -/
theorem dayNumber_eq (hy : y < 400) (hm : m < 12) (hbegins : (153 * m + 2) / 5 ≤ t) :
    dayNumber (y + era * 400 + (if m < 10 then 0 else 1)) (monthOf m) (t - (153 * m + 2) / 5 + 1)
      = era * 146097 + (yearStart y + t : Nat) - 719468 := by
  have hyear : (if monthOf m ≤ 2 then (y + era * 400 + (if m < 10 then 0 else 1)) - 1
      else y + era * 400 + (if m < 10 then 0 else 1)) = y + era * 400 := by
    unfold monthOf
    split <;> split <;> omega
  have hera : ((y : Int) + era * 400) / 400 = era := by omega
  have hyearOfEra : ((y : Int) + era * 400) % 400 = y := by omega
  have hmonth : (((monthOf m : Nat) : Int) + 9) % 12 = m := by
    unfold monthOf
    split <;> omega
  unfold dayNumber yearStart
  dsimp only
  rw [hyear, hera, hyearOfEra, hmonth]
  omega

end

/-- **The year, the month and the day of the month of a day number name it.** -/
theorem civil_names (day : Int) : ∃ (year : Int) (month dayOfMonth : Nat),
    civil day = (year, month, dayOfMonth) ∧ (1 ≤ month ∧ month ≤ 12)
      ∧ (1 ≤ dayOfMonth ∧ dayOfMonth ≤ monthLength year month)
      ∧ dayNumber year month dayOfMonth = day := by
  obtain ⟨era, e, hday, he⟩ : ∃ (era : Int) (e : Nat),
      day = era * 146097 + e - 719468 ∧ e < 146097 :=
    ⟨(day + 719468) / 146097, ((day + 719468) % 146097).toNat, by omega, by omega⟩
  -- the day of the cycle, its year there, and the day of that year
  obtain ⟨y, hy, hfirst, hlast⟩ := exists_year e 400 he
  obtain ⟨hlength, hshort⟩ := yearStart_succ y
  obtain ⟨t, rfl⟩ : ∃ t, e = yearStart y + t := ⟨e - yearStart y, by omega⟩
  obtain ⟨hmonth, hbegins, hordinary, hfebruary⟩ := months t (by omega)
  generalize hm : (5 * t + 2) / 153 = m at hmonth hbegins hordinary hfebruary
  refine ⟨_, _, _, ?_, ?_, ?_, (dayNumber_eq hy hmonth hbegins).trans hday.symm⟩
  · rw [hday]
    exact civil_eq he (yearOf_eq hy hfirst hlast) hm hbegins
  · unfold monthOf
    split <;> omega
  · refine ⟨Nat.succ_pos _, ?_⟩
    by_cases hfeb : m = 11
    · -- the last day of a year counted from March is a leap day
      subst hfeb
      have hlast := hfebruary rfl
      have hlong : monthLength (y + era * 400 + 1) 2 = if isLeapYear (y + era * 400 + 1) then 29
          else 28 := rfl
      have hleap : isLeapYear (y + era * 400 + 1) = isLeapYear (y + 1) := by
        rw [Bool.eq_iff_iff, isLeapYear_iff, isLeapYear_iff]
        omega
      show t - (153 * 11 + 2) / 5 < monthLength (y + era * 400 + 1) 2
      rw [hlong, hleap]
      cases h : isLeapYear (y + 1) with
      | true =>
        rw [if_pos rfl]
        split at hlast <;> omega
      | false =>
        have := hshort h
        rw [if_neg (by omega)] at hlast
        rw [if_neg (by decide)]
        exact hlast
    · have hne : monthOf m ≠ 2 := by
        unfold monthOf
        split <;> omega
      rw [monthLength_of_ne hne]
      exact hordinary (by omega)

end HeatMeter.Calendar
