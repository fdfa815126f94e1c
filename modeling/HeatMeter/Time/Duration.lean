/-
  HeatMeter.Time.Duration
  ───────────────────────
  **LENGTHS OF TIME.**

  Two kinds of length occur.  A `Duration` is a non-negative length with a
  largest value, `2^64 - 1` seconds and `999 999 999` nanoseconds: the monotonic
  clock reads one, and configured intervals are one.  A SPAN is a signed number
  of nanoseconds, an `Int`: the difference of two instants.  A duration longer
  than `maxSpan` has no span, and `Duration.span?` says so.

  Sums of durations either saturate (`saturatingAdd`) or are refused (`add?`);
  which of the two a calculation wants is part of its meaning.
-/
namespace HeatMeter

/-- A length of time in nanoseconds, bounded by the longest one. -/
structure Duration where
  /-- Whole nanoseconds. -/
  nanos : Nat
  /-- At most `2^64 - 1` seconds and the nanoseconds below the next one. -/
  le_longest : nanos ≤ 18446744073709551615999999999
  deriving DecidableEq, Repr

/-- Nanoseconds in a second. -/
abbrev nanosPerSecond : Nat := 1000000000

/-- The longest span, in nanoseconds: `2^63 - 1` milliseconds. -/
def maxSpan : Int := 9223372036854775807000000

/-- Whole milliseconds of a span, towards zero. -/
def wholeMillis (span : Int) : Int :=
  span.tdiv 1000000

namespace Duration

/-- Nanoseconds of the longest duration. -/
def longestNanos : Nat := 18446744073709551615999999999

/-- No time at all. -/
def zero : Duration := ⟨0, by decide⟩

/-- The longest duration. -/
def longest : Duration := ⟨longestNanos, by decide⟩

instance : Inhabited Duration := ⟨zero⟩

instance : LE Duration := ⟨fun a b => a.nanos ≤ b.nanos⟩

instance : LT Duration := ⟨fun a b => a.nanos < b.nanos⟩

instance (a b : Duration) : Decidable (a ≤ b) :=
  inferInstanceAs (Decidable (a.nanos ≤ b.nanos))

instance (a b : Duration) : Decidable (a < b) :=
  inferInstanceAs (Decidable (a.nanos < b.nanos))

/-- The duration of `n` nanoseconds, or the longest one below it. -/
def clamp (n : Nat) : Duration :=
  ⟨min n longestNanos, Nat.min_le_right _ _⟩

/-- The duration of `n` nanoseconds, if there is one. -/
def ofNanos? (n : Nat) : Option Duration :=
  if h : n ≤ longestNanos then some ⟨n, h⟩ else none

/-- The duration of `n` whole seconds, or the longest one. -/
def ofSeconds (n : Nat) : Duration :=
  clamp (n * nanosPerSecond)

/-- Whole seconds. -/
def wholeSeconds (d : Duration) : Nat :=
  d.nanos / nanosPerSecond

/-- Nanoseconds beyond the whole seconds. -/
def subsecNanos (d : Duration) : Nat :=
  d.nanos % nanosPerSecond

/-- The sum, or the longest duration below it. -/
def saturatingAdd (a b : Duration) : Duration :=
  clamp (a.nanos + b.nanos)

/-- The difference, or zero where it would be negative. -/
def saturatingSub (a b : Duration) : Duration :=
  ⟨a.nanos - b.nanos, Nat.le_trans (Nat.sub_le _ _) a.le_longest⟩

/-- The sum, if it is a duration. -/
def add? (a b : Duration) : Option Duration :=
  ofNanos? (a.nanos + b.nanos)

/-- The later of two readings. -/
def max (a b : Duration) : Duration :=
  if a ≤ b then b else a

/-- The span as long as the duration, if it is not too long. -/
def span? (d : Duration) : Option Int :=
  if (d.nanos : Int) ≤ maxSpan then some d.nanos else none

/-- The duration as long as a span, if the span is not negative. -/
def ofSpan? (span : Int) : Option Duration :=
  if 0 ≤ span then ofNanos? span.toNat else none

end Duration

end HeatMeter
