/-
  HeatMeter.Proofs.Time.Text
  ──────────────────────────
  **THE TEXT OF A DATE NAMES THE DATE, AND THAT OF AN INSTANT THE INSTANT.**

  A date is written without blanks, its year in four digits or with a sign, and its
  month and day in two digits each.  An instant adds hour, minute and second in two
  digits each, and a fraction in three, six or nine.  The reader passes over blanks and
  takes shorter numbers too, so it finds each part as it was written:

      year_yearText         the year, before what is no digit
      civil_text            year, month and day
      fraction_text         the fraction of a second
      timeOfDay_text        hour, minute and second, second 60 being a leap second
      Date.read?_text       the date
      Instant.read?_text    the instant

  A leap second is written as the second after the one it belongs to.  At the end of a
  minute that is second 60, which nothing else is written as; a leap second anywhere
  else would be taken for the ordinary second after it.
-/
import HeatMeter.Proofs.Text.Digits
import HeatMeter.Proofs.Time.Calendar
import HeatMeter.Proofs.Time.Instant
import HeatMeter.Time.Text

namespace HeatMeter

open Text

/-! ## §1. Numbers. -/

theorem dropBlanks_cons {c : Char} (h : isBlank c = false) (s : List Char) :
    dropBlanks (c :: s) = c :: s :=
  List.dropWhile_cons_of_neg (by rw [h]; decide)

theorem isBlank_of_isDigit {c : Char} (h : c.isDigit = true) : isBlank c = false := by
  obtain ⟨hlow, hhigh⟩ := Char.isDigit_iff_toNat.1 h
  have hlow : 48 ≤ c.toNat := hlow
  have hhigh : c.toNat ≤ 57 := hhigh
  rw [← Bool.not_eq_true]
  simp only [isBlank, Bool.or_eq_true, Bool.and_eq_true, decide_eq_true_eq, beq_iff_eq]
  omega

/-- Digits follow no blanks. -/
theorem dropBlanks_padded (width n : Nat) (rest : List Char) :
    dropBlanks (padded width n ++ rest) = padded width n ++ rest := by
  obtain ⟨c, more, hc⟩ := List.exists_cons_of_ne_nil (padded_ne_nil width n)
  have hdigit : c.isDigit = true := allDigits_padded width n c (by rw [hc]; exact List.mem_cons_self)
  rw [hc, List.cons_append, dropBlanks_cons (isBlank_of_isDigit hdigit)]

namespace TimeReader

variable {rest : List Char}

theorem twoDigits_padded {n : Nat} (h : n < 100) :
    twoDigits (padded 2 n ++ rest) = some (n, rest) := by
  have hlength : (padded 2 n).length = 2 := length_padded (by decide) h
  rw [twoDigits, dropBlanks_padded, digitsUpTo_append (padded_ne_nil 2 n) (allDigits_padded 2 n)
    hlength.le (.inl hlength), digitsValue_padded]

/-- **A year is read back**, before what is no digit. -/
theorem year_yearText (y : Int) (hrest : EndsDigits rest) :
    year (Calendar.yearText y ++ rest) = some (y, rest) := by
  unfold Calendar.yearText
  split
  next hfour =>
    have hlength : (padded 4 y.toNat).length = 4 := length_padded (by decide) (by omega)
    have hread : digitsUpTo 4 (padded 4 y.toNat ++ rest) = some (y.toNat, rest) := by
      rw [digitsUpTo_append (padded_ne_nil 4 _) (allDigits_padded 4 _) hlength.le (.inl hlength),
        digitsValue_padded]
    obtain ⟨c, more, hc⟩ := List.exists_cons_of_ne_nil (padded_ne_nil 4 y.toNat)
    have hdigit : c.isDigit = true :=
      allDigits_padded 4 y.toNat c (by rw [hc]; exact List.mem_cons_self)
    unfold year
    rw [dropBlanks_padded]
    split
    next heq =>
      rw [hc] at heq
      injection heq with heq
      rw [heq] at hdigit
      cases hdigit
    next heq =>
      rw [hc] at heq
      injection heq with heq
      rw [heq] at hdigit
      cases hdigit
    next =>
      rw [hread]
      show some ((y.toNat : Int), rest) = _
      rw [Int.toNat_of_nonneg hfour.1]
  next hlong =>
    have hread : digitsAny (padded 4 y.natAbs ++ rest) = some (y.natAbs, rest) := by
      rw [digitsAny_append (padded_ne_nil 4 _) (allDigits_padded 4 _) hrest, digitsValue_padded]
    by_cases hneg : y < 0
    · rw [if_pos hneg]
      show (digitsAny (padded 4 y.natAbs ++ rest)).map _ = _
      rw [hread]
      show some (-(y.natAbs : Int), rest) = _
      rw [show -(y.natAbs : Int) = y by omega]
    · rw [if_neg hneg]
      show (digitsAny (padded 4 y.natAbs ++ rest)).map _ = _
      rw [hread]
      show some ((y.natAbs : Int), rest) = _
      rw [show (y.natAbs : Int) = y by omega]

/-- **Year, month and day are read back.** -/
theorem civil_text {year : Int} {month day : Nat} (hmonth : month < 100) (hday : day < 100) :
    civil (Calendar.yearText year ++ '-' :: padded 2 month ++ '-' :: padded 2 day ++ rest)
      = some ((year, month, day), rest) := by
  have hdash (s : List Char) : symbol '-' (dropBlanks ('-' :: s)) = some s := rfl
  unfold civil
  simp only [List.append_assoc, List.cons_append]
  rw [year_yearText year (endsDigits_cons _ rfl)]
  simp only [Option.bind_eq_bind, Option.bind_some]
  rw [hdash]
  simp only [Option.bind_some]
  rw [twoDigits_padded hmonth]
  simp only [Option.bind_some]
  rw [hdash]
  simp only [Option.bind_some]
  rw [twoDigits_padded hday]
  rfl

/-! ## §2. Times of day. -/

/-- Digits behind a point are read to their places. -/
theorem fraction_padded {width n : Nat} (hpos : 0 < width) (hwidth : width ≤ 9)
    (h : n < 10 ^ width) (hrest : EndsDigits rest) :
    fraction ('.' :: (padded width n ++ rest)) = some (n * 10 ^ (9 - width), rest) := by
  have hlength : (padded width n).length = width := length_padded hpos h
  have hread : digitsUpTo 9 (padded width n ++ rest) = some (n, rest) := by
    rw [digitsUpTo_append (padded_ne_nil width n) (allDigits_padded width n)
      (hlength.trans_le hwidth) (.inr hrest), digitsValue_padded]
  have hcount : (padded width n ++ rest).length - rest.length = width := by
    rw [List.length_append, hlength, Nat.add_sub_cancel]
  have hnext : rest.dropWhile Char.isDigit = rest := by
    cases rest with
    | nil => rfl
    | cons c rest => exact List.dropWhile_cons_of_neg (by rw [hrest c rfl]; exact Bool.false_ne_true)
  unfold fraction
  simp only [Option.bind_eq_bind, hread, Option.bind_some, hcount, hnext]
  rfl

/-- **A fraction is read back**, whichever of its lengths it is written in. -/
theorem fraction_text {n : Nat} (h : n < nanosPerSecond) (hrest : EndsDigits rest)
    (hpoint : ∀ c ∈ rest.head?, c ≠ '.') : fraction (fractionText n ++ rest) = some (n, rest) := by
  have h : n < 1000000000 := h
  unfold fractionText
  split
  next hzero =>
    rw [List.nil_append, hzero]
    unfold fraction
    split
    next => exact absurd rfl (hpoint '.' rfl)
    next => rfl
  next =>
    split
    next hmillis =>
      rw [List.cons_append, fraction_padded (by decide) (by decide) (by omega) hrest,
        show n / 1000000 * 10 ^ (9 - 3) = n by omega]
    next =>
      split
      next hmicros =>
        rw [List.cons_append, fraction_padded (by decide) (by decide) (by omega) hrest,
          show n / 1000 * 10 ^ (9 - 6) = n by omega]
      next =>
        rw [List.cons_append, fraction_padded (by decide) (by decide) (by omega) hrest,
          show n * 10 ^ (9 - 9) = n by omega]

/-- A time of day as it is written. -/
def timeText (hour minute second nanos : Nat) : List Char :=
  padded 2 hour ++ ':' :: (padded 2 minute ++ ':' :: (padded 2 second ++ fractionText nanos))

/-- **Hour, minute, second and fraction are read back**, second 60 as a leap second. -/
theorem timeOfDay_text {hour minute second nanos : Nat} (hhour : hour ≤ 23) (hminute : minute ≤ 59)
    (hsecond : second ≤ 60) (hnanos : nanos < nanosPerSecond) (hrest : EndsDigits rest)
    (hpoint : ∀ c ∈ rest.head?, c ≠ '.') :
    timeOfDay (timeText hour minute second nanos ++ rest)
      = some (if second = 60 then (hour * 3600 + minute * 60 + 59, nanosPerSecond + nanos)
          else (hour * 3600 + minute * 60 + second, nanos), rest) := by
  have hcolon (s : List Char) : symbol ':' (dropBlanks (':' :: s)) = some s := rfl
  unfold timeText timeOfDay
  simp only [List.append_assoc, List.cons_append, Option.bind_eq_bind, twoDigits_padded (show hour < 100 by omega), Option.bind_some,
    hcolon, twoDigits_padded (show minute < 100 by omega),
    twoDigits_padded (show second < 100 by omega), fraction_text hnanos hrest hpoint]
  rw [if_pos ⟨hhour, hminute, hsecond⟩]
  split <;> rfl

end TimeReader

/-! ## §3. Dates. -/

theorem Calendar.monthLength_le (year : Int) (month : Nat) : monthLength year month ≤ 31 := by
  unfold monthLength
  split
  all_goals first
    | decide
    | split <;> decide

namespace Date

/-- **Year, month and day of a date are read off its text**, and name the date. -/
theorem civil_text (d : Date) (rest : List Char) : ∃ year month day,
    TimeReader.civil (d.text ++ rest) = some ((year, month, day), rest)
      ∧ ofCivil? year month day = some d := by
  obtain ⟨year, month, day, hcivil, hmonth, hday, hnumber⟩ := Calendar.civil_names d.day
  refine ⟨year, month, day, ?_, ?_⟩
  · have hlength := Calendar.monthLength_le year month
    unfold Date.text Date.civil
    rw [hcivil]
    exact TimeReader.civil_text (by omega) (by omega)
  · unfold ofCivil? ofDay?
    rw [if_pos hday, hnumber, dif_pos d.in_range]

/-- **The text of a date names it.** -/
theorem read?_text (d : Date) : Date.read? d.text = some d := by
  obtain ⟨year, month, day, hread, hdate⟩ := d.civil_text []
  rw [List.append_nil] at hread
  unfold Date.read?
  rw [hread]
  exact hdate

end Date

/-! ## §4. Instants. -/

namespace Instant

theorem mk?_self (t : Instant) : mk? t.seconds t.nanos = some t := by
  unfold mk?
  rw [dif_pos t.in_range, dif_pos t.nanos_lt]

/-- A text of an instant, read part by part. -/
theorem read?_parts {s rest : List Char} {year : Int} {month day second nanos : Nat} {d : Date}
    (hcivil : TimeReader.civil s = some ((year, month, day), 'T' :: rest))
    (htime : TimeReader.timeOfDay rest = some ((second, nanos), ['Z']))
    (hdate : Date.ofCivil? year month day = some d) :
    read? s = mk? (d.day * secondsPerDay + second) nanos := by
  unfold read?
  simp only [Option.bind_eq_bind, hcivil, Option.bind_some, htime]
  show ((Date.ofCivil? year month day).bind fun date =>
    mk? (date.day * secondsPerDay + second - 0) nanos) = _
  rw [hdate, Option.bind_some, Int.sub_zero]

/-- The text of an instant is read as its date with the time of day that it shows. -/
theorem read?_shown (t : Instant) {ofDay second : Nat} (hofDay : (ofDay : Int) = t.secondOfDay)
    (hsecond : second = ofDay % 60 + t.nanos / nanosPerSecond) :
    read? t.text = if second = 60
      then mk? t.seconds (nanosPerSecond + t.nanos % nanosPerSecond)
      else mk? (t.seconds + (t.nanos / nanosPerSecond : Nat)) (t.nanos % nanosPerSecond) := by
  have hlt : t.secondOfDay < 86400 := Int.emod_lt_of_pos _ (by decide)
  have hday : t.date.day * secondsPerDay + t.secondOfDay = t.seconds :=
    Int.ediv_mul_add_emod t.seconds secondsPerDay
  have hleap : t.nanos / nanosPerSecond ≤ 1 :=
    Nat.lt_succ_iff.1 (Nat.div_lt_of_lt_mul t.nanos_lt)
  have hfraction : t.nanos % nanosPerSecond < nanosPerSecond := Nat.mod_lt _ (by decide)
  obtain ⟨shown, hshown⟩ : ∃ s, s = TimeReader.timeText (ofDay / 3600) (ofDay / 60 % 60) second
    (t.nanos % nanosPerSecond) := ⟨_, rfl⟩
  have htext : t.text = t.date.text ++ 'T' :: (shown ++ ['Z']) := by
    unfold text
    rw [← hofDay, Int.toNat_natCast]
    dsimp only
    rw [← hsecond, hshown]
    simp only [TimeReader.timeText, List.append_assoc, List.cons_append]
  obtain ⟨year, month, day, hcivil, hdate⟩ := t.date.civil_text ('T' :: (shown ++ ['Z']))
  rw [← htext] at hcivil
  have htime := TimeReader.timeOfDay_text (show ofDay / 3600 ≤ 23 by omega)
    (show ofDay / 60 % 60 ≤ 59 by omega) (show second ≤ 60 by omega) hfraction
    (endsDigits_cons [] (show Char.isDigit 'Z' = false from rfl))
    (by rintro c hc; rw [← Option.some.inj hc]; decide)
  rw [← hshown] at htime
  -- second 60 is reached from second 59 alone, and is the only one that is read as a leap second
  split at htime
  next hsixty =>
    rw [read?_parts hcivil htime hdate, if_pos hsixty]
    congr 1
    omega
  next hordinary =>
    rw [read?_parts hcivil htime hdate, if_neg hordinary]
    congr 1
    omega

/-- **What the text of an instant names**: the instant, but for a leap second within a minute
the ordinary second after it. -/
theorem read?_text (t : Instant) : read? t.text =
    if t.isLeap = true ∧ t.secondOfDay % 60 ≠ 59 then mk? (t.seconds + 1) (t.nanos - nanosPerSecond)
    else some t := by
  obtain ⟨ofDay, hofDay⟩ : ∃ n : Nat, (n : Int) = t.secondOfDay :=
    ⟨_, Int.toNat_of_nonneg (Int.emod_nonneg _ (by decide))⟩
  have hnanos : t.nanos < 2 * nanosPerSecond := t.nanos_lt
  have hiff : t.isLeap = true ↔ nanosPerSecond ≤ t.nanos := decide_eq_true_iff
  rw [t.read?_shown hofDay rfl, ← hofDay]
  by_cases hleap : nanosPerSecond ≤ t.nanos
  · have hone : t.nanos / nanosPerSecond = 1 := Nat.div_eq_of_lt_le (by omega) (by omega)
    have hfraction : t.nanos % nanosPerSecond = t.nanos - nanosPerSecond := by
      rw [Nat.mod_eq_sub_mod hleap, Nat.mod_eq_of_lt (by omega)]
    rw [hone, hfraction]
    -- the second after is second 60 at the end of a minute, and an ordinary one elsewhere
    by_cases hend : ofDay % 60 = 59
    · rw [if_pos (by omega), if_neg fun hwithin => hwithin.2 (by omega),
        Nat.add_sub_cancel' hleap, mk?_self]
    · rw [if_neg (by omega), if_pos ⟨hiff.2 hleap, by omega⟩]
      rfl
  · have hzero : t.nanos / nanosPerSecond = 0 := Nat.div_eq_of_lt (by omega)
    have hfraction : t.nanos % nanosPerSecond = t.nanos := Nat.mod_eq_of_lt (by omega)
    rw [hzero, hfraction, if_neg (by omega),
      if_neg fun hwithin => hleap (hiff.1 hwithin.1), Int.natCast_zero, Int.add_zero,
      mk?_self]

/-- **The text of an instant names it exactly if a leap second ends its minute.** -/
theorem read?_text_iff (t : Instant) :
    read? t.text = some t ↔ (t.isLeap = true → t.secondOfDay % 60 = 59) := by
  rw [read?_text]
  split
  next hwithin =>
    constructor
    · intro hread
      have hseconds := (mk?_eq_some hread).1
      omega
    · intro hend
      exact absurd (hend hwithin.1) hwithin.2
  next hends =>
    refine ⟨fun _ hleap => ?_, fun _ => rfl⟩
    by_contra hwithin
    exact hends ⟨hleap, hwithin⟩

example : (Instant.mk 1483228799 1500000000 (by decide) (by decide)).text
    = "2016-12-31T23:59:60.500Z".toList := by
  decide +kernel

end Instant

end HeatMeter
