/-
  HeatMeter.Time.Text
  ───────────────────
  **THE TEXT OF DATES AND INSTANTS.**

  Written: `YYYY-MM-DD` for a date and `YYYY-MM-DDTHH:MM:SS[.f]Z` for an
  instant, always in UTC.  A year outside 0..9999 has a sign and at least four
  digits.  A fraction has 3, 6 or 9 digits, the fewest that are exact, and is
  left out when it is zero.  A leap second is second 60.

  Read: the same and more.  Blanks may stand before every number and before
  every `-` and `:`; numbers may have fewer digits; an instant may name another
  offset than UTC.  A fraction is cut after nine digits.
-/
import HeatMeter.Text.Blank
import HeatMeter.Text.Digits
import HeatMeter.Time.Instant

namespace HeatMeter

open Text

/-! ## §1. Writing. -/

/-- The text of a year. -/
def Calendar.yearText (year : Int) : List Char :=
  if 0 ≤ year ∧ year ≤ 9999 then padded 4 year.toNat
  else (if year < 0 then '-' else '+') :: padded 4 year.natAbs

/-- The text of a date. -/
def Date.text (d : Date) : List Char :=
  let (year, month, day) := d.civil
  Calendar.yearText year ++ '-' :: padded 2 month ++ '-' :: padded 2 day

/-- The text of a fraction of a second, the point included. -/
def fractionText (nanos : Nat) : List Char :=
  if nanos = 0 then []
  else if nanos % 1000000 = 0 then '.' :: padded 3 (nanos / 1000000)
  else if nanos % 1000 = 0 then '.' :: padded 6 (nanos / 1000)
  else '.' :: padded 9 nanos

/-- The text of an instant. -/
def Instant.text (t : Instant) : List Char :=
  let ofDay := t.secondOfDay.toNat
  let second := ofDay % 60 + t.nanos / nanosPerSecond
  t.date.text ++ 'T' :: padded 2 (ofDay / 3600) ++ ':' :: padded 2 (ofDay / 60 % 60)
    ++ ':' :: padded 2 second ++ fractionText (t.nanos % nanosPerSecond) ++ ['Z']

/-! ## §2. Reading. -/

namespace TimeReader

/-- A character that must come next. -/
def symbol (c : Char) : List Char → Option (List Char)
  | d :: rest => if d = c then some rest else none
  | [] => none

/-- A year: four digits at most, or a sign and any number of digits. -/
def year (s : List Char) : Option (Int × List Char) :=
  match dropBlanks s with
  | '-' :: rest => (digitsAny rest).map fun (n, rest) => (-(n : Int), rest)
  | '+' :: rest => (digitsAny rest).map fun (n, rest) => ((n : Int), rest)
  | rest => (digitsUpTo 4 rest).map fun (n, rest) => ((n : Int), rest)

/-- A number of one or two digits, after blanks. -/
def twoDigits (s : List Char) : Option (Nat × List Char) :=
  digitsUpTo 2 (dropBlanks s)

/-- Year, month and day. -/
def civil (s : List Char) : Option ((Int × Nat × Nat) × List Char) := do
  let (y, s) ← year s
  let s ← symbol '-' (dropBlanks s)
  let (m, s) ← twoDigits s
  let s ← symbol '-' (dropBlanks s)
  let (d, s) ← twoDigits s
  return ((y, m, d), s)

/-- A fraction of a second in nanoseconds, zero if there is none. -/
def fraction (s : List Char) : Option (Nat × List Char) :=
  match s with
  | '.' :: rest => do
    let (n, after) ← digitsUpTo 9 rest
    let count := rest.length - after.length
    return (n * Nat.pow 10 (9 - count), after.dropWhile Char.isDigit)
  | _ => some (0, s)

/-- Hour, minute, second and nanoseconds; second 60 is a leap second. -/
def timeOfDay (s : List Char) : Option ((Nat × Nat) × List Char) := do
  let (h, s) ← twoDigits s
  let s ← symbol ':' (dropBlanks s)
  let (m, s) ← twoDigits s
  let s ← symbol ':' (dropBlanks s)
  let (sec, s) ← twoDigits s
  let (nanos, s) ← fraction s
  if h ≤ 23 ∧ m ≤ 59 ∧ sec ≤ 60 then
    if sec = 60 then return ((h * 3600 + m * 60 + 59, nanosPerSecond + nanos), s)
    else return ((h * 3600 + m * 60 + sec, nanos), s)
  else none

/-- Hours and minutes of an offset, in seconds. -/
def offsetSize (s : List Char) : Option (Nat × List Char) :=
  match s with
  | h₁ :: h₂ :: rest =>
    if h₁.isDigit && h₂.isDigit then
      match rest.dropWhile (fun c => c = ':' || isBlank c) with
      | m₁ :: m₂ :: rest =>
        if m₁.isDigit && m₂.isDigit && digitValue m₁ < 6 then
          some (digitsValue [h₁, h₂] * 3600 + digitsValue [m₁, m₂] * 60, rest)
        else none
      | _ => none
    else none
  | _ => none

/-- An offset from UTC in seconds: `Z`, `UTC` in any case, or a sign (the minus
sign U+2212 too), two digits of hours and two of minutes. -/
def offset (s : List Char) : Option (Int × List Char) :=
  match s with
  | 'Z' :: rest | 'z' :: rest => some (0, rest)
  | '+' :: rest => (offsetSize rest).map fun (n, rest) => ((n : Int), rest)
  | '-' :: rest | '−' :: rest => (offsetSize rest).map fun (n, rest) => (-(n : Int), rest)
  | a :: b :: c :: rest =>
    if lowerAscii [a, b, c] = ['u', 't', 'c'] then some (0, rest) else none
  | _ => none

end TimeReader

/-- The date a text names; blanks may surround it. -/
def Date.read? (s : List Char) : Option Date := do
  let ((y, m, d), rest) ← TimeReader.civil s
  if (dropBlanks rest).isEmpty then Date.ofCivil? y m d else none

/-- The instant a text names: a date, one of `T`, `t` and a blank space, a time of
day and an offset, which must be smaller than a day. -/
def Instant.read? (s : List Char) : Option Instant := do
  let ((y, m, d), s) ← TimeReader.civil s
  let s ← match s with
    | 'T' :: s | 't' :: s | ' ' :: s => some s
    | _ => none
  let ((second, nanos), s) ← TimeReader.timeOfDay s
  let (offset, s) ← TimeReader.offset (dropBlanks s)
  if (dropBlanks s).isEmpty && decide (offset.natAbs < 86400) then
    let date ← Date.ofCivil? y m d
    Instant.mk? (date.day * secondsPerDay + second - offset) nanos
  else none

end HeatMeter
