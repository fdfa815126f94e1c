/-
  HeatMeter.Record
  ────────────────
  **READINGS WITH THEIR INSTANTS.**

  A log and the merged channels of a unit both amount to a list of records.  They
  are metered in order of time; records of one instant keep their order.
-/
import HeatMeter.Reading
import HeatMeter.Time.Instant

namespace HeatMeter

/-- A reading with the instant of the poll. -/
structure Record (α : Type) where
  /-- When the sensors were polled. -/
  time : Instant
  /-- What they showed. -/
  reading : Reading α
  deriving DecidableEq, Repr

/-- Records in order of time. -/
def Record.inOrder {α : Type} (records : List (Record α)) : List (Record α) :=
  records.mergeSort fun a b => decide (a.time ≤ b.time)

end HeatMeter
