/-
  HeatMeter.Data.Snapshot
  ───────────────────────
  **THE DATA FORM OF AN ENERGY SNAPSHOT.**

  A snapshot file may lack any counter, which is then zero, so that a file of an
  older installation can still be read.  A counter that is not finite is written
  as `null`, which is no counter when it is read.
-/
import HeatMeter.Data.Basic
import HeatMeter.Heat

namespace HeatMeter.EnergySnapshot

/-- A snapshot as a record. -/
def toJson (s : EnergySnapshot Float) : Json :=
  .record [("daily_heating_energy", .real s.dailyHeating),
    ("total_heating_energy", .real s.totalHeating),
    ("daily_cooling_energy", .real s.dailyCooling),
    ("total_cooling_energy", .real s.totalCooling),
    ("last_reset_date", .ofOption Date.toJson s.resetDate)]

/-- The snapshot in a record. -/
def ofJson? (x : Json) : Option (EnergySnapshot Float) := do
  let f ← x.fields .lenient ["daily_heating_energy", "total_heating_energy",
    "daily_cooling_energy", "total_cooling_energy", "last_reset_date"]
  return {
    dailyHeating := ← f.withDefault "daily_heating_energy" 0 Json.asFloat
    totalHeating := ← f.withDefault "total_heating_energy" 0 Json.asFloat
    dailyCooling := ← f.withDefault "daily_cooling_energy" 0 Json.asFloat
    totalCooling := ← f.withDefault "total_cooling_energy" 0 Json.asFloat
    resetDate := ← f.optional "last_reset_date" Date.ofJson? }

end HeatMeter.EnergySnapshot
