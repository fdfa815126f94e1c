/-
  HeatMeter.Replay
  ────────────────
  **METERING RECORDS AT THEIR OWN INSTANTS.**

  The clock is set to the instant of each record before its reading is metered, so
  that nothing depends on when the replay takes place.
-/
import HeatMeter.Meter
import HeatMeter.Record

namespace HeatMeter

/-- A meter under its clock. -/
structure Replay (α : Type) where
  /-- The meter. -/
  meter : Meter α
  /-- The clock it reads. -/
  clock : Clock

namespace Replay

variable {α : Type} [Scalar α]

/-- A replay that begins at an instant, from a snapshot if there is one. -/
def startingAt (s : Settings α) (snapshot : Option (EnergySnapshot α)) (now : Instant) :
    Replay α where
  meter := match snapshot with
    | some kept => .restore s kept now
    | none => .startingAt s now
  clock := .startingAt now

/-- Meter one record. -/
def step (p : Replay α) (r : Record α) : Replay α :=
  let clock := (p.clock.set r.time).1
  ⟨p.meter.poll r.reading clock, clock⟩

/-- Meter records one after another. -/
def run (p : Replay α) (records : List (Record α)) : Replay α :=
  records.foldl step p

end Replay

end HeatMeter
