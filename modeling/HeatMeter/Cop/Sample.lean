/-
  HeatMeter.Cop.Sample
  ────────────────────
  **POWER SAMPLES AND THE ENERGY BETWEEN THEM.**

  A sample is a thermal and an electrical power at one instant.  Between two
  consecutive samples power is taken to change linearly, so the energy of an
  interval is the mean of its two powers times its length (the trapezoid rule).
  Lengths are whole milliseconds.
-/
import HeatMeter.Scalar
import HeatMeter.Time.Instant

namespace HeatMeter

/-- A thermal and an electrical power at one instant, kW. -/
structure Sample (α : Type) where
  /-- When the powers were taken. -/
  time : Instant
  /-- Thermal power. -/
  thermal : α
  /-- Electrical power. -/
  electrical : α
  deriving DecidableEq, Repr

section

variable {α : Type} [Scalar α]

/-- A span in hours. -/
def hoursOfSpan (span : Int) : α :=
  Scalar.ofInt (wholeMillis span) / Scalar.ofInt 3600000

/-- A span in minutes. -/
def minutesOfSpan (span : Int) : α :=
  Scalar.ofInt (wholeMillis span) / Scalar.ofInt 60000

/-- The energy of an interval whose power goes from `p` to `q`. -/
def trapezoid (p q hours : α) : α :=
  (p + q) / Scalar.ofInt 2 * hours

end

namespace Sample

variable {α : Type} [Scalar α]

/-- Samples in order of time; samples of one instant keep their order. -/
def inOrder (samples : List (Sample α)) : List (Sample α) :=
  samples.mergeSort fun a b => decide (a.time ≤ b.time)

/-- The energy of a power over samples in order, added to `start` interval by
interval. -/
def energyFrom (power : Sample α → α) : α → List (Sample α) → α
  | start, a :: b :: rest =>
    energyFrom power
      (start + trapezoid (power a) (power b) (hoursOfSpan (b.time.since a.time)))
      (b :: rest)
  | start, _ => start

/-- The energy of a power over samples in order. -/
def energy (power : Sample α → α) (samples : List (Sample α)) : α :=
  energyFrom power 0 samples

end Sample

end HeatMeter
