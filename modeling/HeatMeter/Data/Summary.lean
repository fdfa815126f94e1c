/-
  HeatMeter.Data.Summary
  ──────────────────────
  **THE DATA FORM OF WHAT A METER SHOWS.**
-/
import HeatMeter.Data.Basic
import HeatMeter.Meter

namespace HeatMeter

open Json (record)

/-- A coefficient with its quality as a record. -/
def CopReport.toJson (r : CopReport Float) : Json :=
  record [("value", .ofOption .real r.value), ("quality", r.quality.toJson)]

/-- A summary as a record. -/
def Summary.toJson (s : Summary Float) : Json :=
  record [("cop", s.cop.toJson),
    ("cop_by_mode", record (s.copByMode.toList.map fun (m, r) => (m.name, r.toJson))),
    ("heating_power", .real s.power.heating),
    ("cooling_power", .real s.power.cooling),
    ("daily_heating_energy", .real s.daily.heating),
    ("total_heating_energy", .real s.total.heating),
    ("daily_cooling_energy", .real s.daily.cooling),
    ("total_cooling_energy", .real s.total.cooling),
    ("daily_start_time", s.dayStart.toJson),
    ("compressor", s.compressor.toJson),
    ("defrost_state", s.phase.toJson),
    ("data_reliable", .bool s.reliable)]

end HeatMeter
