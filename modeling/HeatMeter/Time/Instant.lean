/-
  HeatMeter.Time.Instant
  ──────────────────────
  **POINTS IN TIME, LEAP SECONDS INCLUDED.**

  An `Instant` is a UTC second together with a nanosecond inside it.  A leap
  second `:60` is written as second 59 with nanoseconds from 10^9 upwards: it
  comes after every nanosecond of second 59 and before second 0 of the next
  minute, which is exactly the lexicographic order of the two numbers.

  The difference of two instants counts a leap second that the earlier of the
  two is in.  Which one is "earlier" is decided by the time of day alone; for
  two instants of one day that is the true order.  Where neither instant is in
  a leap second, the difference is that of the two linear nanosecond counts.

  LOCAL TIME IS TAKEN TO BE UTC: the day of an instant is its UTC day.  A meter
  whose days begin at the midnight of another zone has another `date`.
-/
import HeatMeter.Time.Calendar
import HeatMeter.Time.Duration

namespace HeatMeter

/-- Seconds in a day. -/
abbrev secondsPerDay : Int := 86400

/-- A point in time, in UTC. -/
structure Instant where
  /-- Whole seconds since 1970-01-01T00:00:00. -/
  seconds : Int
  /-- Nanoseconds within the second; from 10^9 on, within the leap second after it. -/
  nanos : Nat
  /-- The second lies on a day there is. -/
  in_range : -8334601228800 ≤ seconds ∧ seconds < 8210266876800
  /-- At most one leap second follows a second. -/
  nanos_lt : nanos < 2000000000
  deriving DecidableEq, Repr

namespace Instant

instance : Inhabited Instant := ⟨⟨0, 0, by decide, by decide⟩⟩

instance : LE Instant :=
  ⟨fun a b => a.seconds < b.seconds ∨ (a.seconds = b.seconds ∧ a.nanos ≤ b.nanos)⟩

instance : LT Instant :=
  ⟨fun a b => a.seconds < b.seconds ∨ (a.seconds = b.seconds ∧ a.nanos < b.nanos)⟩

instance (a b : Instant) : Decidable (a ≤ b) :=
  inferInstanceAs
    (Decidable (a.seconds < b.seconds ∨ (a.seconds = b.seconds ∧ a.nanos ≤ b.nanos)))

instance (a b : Instant) : Decidable (a < b) :=
  inferInstanceAs
    (Decidable (a.seconds < b.seconds ∨ (a.seconds = b.seconds ∧ a.nanos < b.nanos)))

/-- The instant with these seconds and nanoseconds, if there is one. -/
def mk? (seconds : Int) (nanos : Nat) : Option Instant :=
  if h : -8334601228800 ≤ seconds ∧ seconds < 8210266876800 then
    if k : nanos < 2000000000 then some ⟨seconds, nanos, h, k⟩ else none
  else none

/-- Whether the instant lies in a leap second. -/
def isLeap (t : Instant) : Bool :=
  nanosPerSecond ≤ t.nanos

/-- Seconds since midnight. -/
def secondOfDay (t : Instant) : Int :=
  t.seconds % secondsPerDay

/-- The day an instant falls on, in UTC. -/
def date (t : Instant) : Date :=
  ⟨t.seconds / secondsPerDay, by
    have h := t.in_range
    simp only [secondsPerDay]
    omega⟩

/-- Nanoseconds since 1970-01-01T00:00:00, on a scale without leap seconds. -/
def linear (t : Instant) : Int :=
  t.seconds * nanosPerSecond + t.nanos

/-- The leap second to count between `earlier` and `later`, by time of day. -/
def leapBetween (later earlier : Instant) : Int :=
  if later.secondOfDay > earlier.secondOfDay ∧ earlier.isLeap then 1
  else if later.secondOfDay < earlier.secondOfDay ∧ later.isLeap then -1
  else 0

/-- The span from `earlier` to `later` in nanoseconds, negative where they are
in the other order. -/
def since (later earlier : Instant) : Int :=
  later.linear - earlier.linear + leapBetween later earlier * nanosPerSecond

/-- The instant a linear nanosecond count names, if there is one. -/
def ofLinear? (n : Int) : Option Instant :=
  mk? (n / nanosPerSecond) (n % nanosPerSecond).toNat

/-- The instant a span later, if there is one.

Inside a leap second a shift that stays in it, or that falls back into the
second before it by less than a second, moves the nanoseconds alone; every
other shift counts a leap second as a second of its own, which a forward shift
leaves at once and a backward shift has behind it. -/
def add? (t : Instant) (span : Int) : Option Instant :=
  if t.isLeap then
    let whole := span.tdiv nanosPerSecond
    let rest := span.tmod nanosPerSecond
    if 0 < whole ∨ (0 < rest ∧ 2 * (nanosPerSecond : Int) ≤ t.nanos + rest) then
      ofLinear? (t.linear - nanosPerSecond + span)
    else if whole < 0 then
      ofLinear? (t.linear + span)
    else
      mk? t.seconds (t.nanos + rest).toNat
  else
    ofLinear? (t.linear + span)

/-- The instant a span earlier, if there is one. -/
def sub? (t : Instant) (span : Int) : Option Instant :=
  t.add? (-span)

end Instant

end HeatMeter
