/-
  HeatMeter.Time.Calendar
  ───────────────────────
  **DAYS OF THE GREGORIAN CALENDAR.**

  A `Date` is a day number counted from 1970-01-01, so that two dates are equal
  exactly when their numbers are, and a shift by whole days is an addition.
  Years run from -262143 to 262142.

  Years, months and days are computed on the 400-year cycle of 146 097 days,
  with years taken from March so that the leap day comes last: the day of such a
  year in which month `k` (March = 0) begins is `(153 k + 2) / 5`.
-/
namespace HeatMeter

/-- A day, counted from 1970-01-01. -/
structure Date where
  /-- Days since 1970-01-01, negative before it. -/
  day : Int
  /-- From -262143-01-01 to 262142-12-31. -/
  in_range : -96465292 ≤ day ∧ day ≤ 95026236
  deriving DecidableEq, Repr

namespace Calendar

/-- Whether a year has a 29th of February. -/
def isLeapYear (year : Int) : Bool :=
  year % 4 == 0 && (year % 100 != 0 || year % 400 == 0)

/-- The number of days in a month, zero for a number that names none. -/
def monthLength (year : Int) (month : Nat) : Nat :=
  match month with
  | 1 | 3 | 5 | 7 | 8 | 10 | 12 => 31
  | 4 | 6 | 9 | 11 => 30
  | 2 => if isLeapYear year then 29 else 28
  | _ => 0

/-- The day number of a year, month and day. -/
def dayNumber (year : Int) (month day : Nat) : Int :=
  let y := if month ≤ 2 then year - 1 else year
  let era := y / 400
  let yearOfEra := y % 400
  let dayOfYear : Int := (153 * ((month + 9) % 12) + 2) / 5 + day - 1
  era * 146097 + yearOfEra * 365 + yearOfEra / 4 - yearOfEra / 100 + dayOfYear - 719468

/-- The year, month and day of a day number. -/
def civil (day : Int) : Int × Nat × Nat :=
  let z := day + 719468
  let era := z / 146097
  let dayOfEra := z % 146097
  let yearOfEra :=
    (dayOfEra - dayOfEra / 1460 + dayOfEra / 36524 - dayOfEra / 146096) / 365
  let dayOfYear := dayOfEra - (365 * yearOfEra + yearOfEra / 4 - yearOfEra / 100)
  let fromMarch := (5 * dayOfYear + 2) / 153
  let dayOfMonth := dayOfYear - (153 * fromMarch + 2) / 5 + 1
  let month := if fromMarch < 10 then fromMarch + 3 else fromMarch - 9
  let year := yearOfEra + era * 400 + (if month ≤ 2 then 1 else 0)
  (year, month.toNat, dayOfMonth.toNat)

end Calendar

namespace Date

/-- The date with a day number, if the number is in range. -/
def ofDay? (day : Int) : Option Date :=
  if h : -96465292 ≤ day ∧ day ≤ 95026236 then some ⟨day, h⟩ else none

/-- The date of a year, month and day, if they name one. -/
def ofCivil? (year : Int) (month day : Nat) : Option Date :=
  if 1 ≤ day ∧ day ≤ Calendar.monthLength year month then
    ofDay? (Calendar.dayNumber year month day)
  else none

/-- Year, month and day. -/
def civil (d : Date) : Int × Nat × Nat :=
  Calendar.civil d.day

instance : Inhabited Date := ⟨⟨0, by decide⟩⟩

end Date

end HeatMeter
