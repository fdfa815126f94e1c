/-
  HeatMeter.Settings.Check
  ────────────────────────
  **WHICH SETTINGS ARE ACCEPTABLE.**

  Settings are refused for the first fault found, section by section.  Every
  fault is a comparison that holds; a quantity that compares with nothing, such
  as NaN, is at fault nowhere.
-/
import HeatMeter.Decimal.Layout
import HeatMeter.Settings

namespace HeatMeter

/-- The pairs of bounds in the settings of a window. -/
inductive Bounded where
  /-- Thermal energy of a window. -/
  | thermalEnergy
  /-- Electrical energy of a window. -/
  | electricalEnergy
  /-- The coefficient. -/
  | cop
  deriving DecidableEq, Repr

/-- Why settings are refused. -/
inductive SettingFault (α : Type) where
  /-- A constant of the water circuit is not positive. -/
  | water
  /-- The power factor is not above zero and at most one. -/
  | powerFactor (factor : α)
  /-- The voltage is not positive. -/
  | voltage
  /-- The retention is not positive. -/
  | retentionNotPositive
  /-- The retention is longer than a year. -/
  | retentionTooLong (minutes : Int)
  /-- A window holds fewer than two samples. -/
  | tooFewMeasurements
  /-- A lower bound is not below its upper bound. -/
  | bounds (what : Bounded) (low high : α)
  /-- What is insufficient would be more than what is preliminary. -/
  | quality
  /-- No settled reading is needed. -/
  | stableReadings
  /-- No duration is kept. -/
  | maxHistory
  deriving DecidableEq, Repr

/-- The minutes of a year of 365 days, the longest retention. -/
def maxRetentionMinutes : Int := 525600

namespace Settings

variable {α : Type} [Scalar α]

/-- The fault of the water section. -/
def waterFault? (w : WaterSettings α) : Option (SettingFault α) :=
  if w.specificHeat ≤ 0 ∨ w.flowToKgPerSecond ≤ 0 then some .water else none

/-- The first fault of the electrical section. -/
def electricalFault? (e : ElectricalSettings α) : Option (SettingFault α) :=
  if e.powerFactor ≤ 0 ∨ Scalar.ofInt 1 < e.powerFactor then some (.powerFactor e.powerFactor)
  else
    match e.voltage with
    | some v => if v ≤ 0 then some .voltage else none
    | none => none

/-- The fault of a pair of bounds. -/
def boundsFault? (what : Bounded) (low high : α) : Option (SettingFault α) :=
  if high ≤ low then some (.bounds what low high) else none

/-- The first fault of the window's section. -/
def copFault? (c : CopSettings α) : Option (SettingFault α) :=
  if c.retentionMinutes ≤ 0 then some .retentionNotPositive
  else if maxRetentionMinutes < c.retentionMinutes then
    some (.retentionTooLong c.retentionMinutes)
  else if c.maxMeasurements < 2 then some .tooFewMeasurements
  else
    boundsFault? .thermalEnergy c.minThermalEnergy c.maxThermalEnergy
    <|> boundsFault? .electricalEnergy c.minElectricalEnergy c.maxElectricalEnergy
    <|> boundsFault? .cop c.minCop c.maxCop
    <|> if c.preliminaryCount < c.insufficientCount
        ∨ c.preliminarySpanMinutes < c.insufficientSpanMinutes then some .quality else none

/-- The fault of the defrost section. -/
def defrostFault? (d : DefrostSettings α) : Option (SettingFault α) :=
  if d.stableReadingsRequired = 0 then some .stableReadings else none

/-- The fault of the compressor section. -/
def compressorFault? (c : CompressorSettings) : Option (SettingFault α) :=
  if c.maxHistory = 0 then some .maxHistory else none

/-- The first fault of settings, none if they are acceptable. -/
def fault? (s : Settings α) : Option (SettingFault α) :=
  waterFault? s.water <|> electricalFault? s.electrical <|> copFault? s.cop
    <|> defrostFault? s.defrost <|> compressorFault? s.compressor

end Settings

namespace SettingFault

/-- The setting at fault. -/
def field {α : Type} : SettingFault α → String
  | .water => "water"
  | .powerFactor _ => "electrical.power_factor"
  | .voltage => "electrical.voltage"
  | .retentionNotPositive | .retentionTooLong _ => "cop.retention_minutes"
  | .tooFewMeasurements => "cop.max_measurements"
  | .bounds .thermalEnergy .. => "cop.thermal_energy"
  | .bounds .electricalEnergy .. => "cop.electrical_energy"
  | .bounds .cop .. => "cop.cop"
  | .quality => "cop.quality"
  | .stableReadings => "defrost.stable_readings_required"
  | .maxHistory => "compressor.max_history"

/-- A quantity as a message shows it. -/
def shown (x : Float) : String :=
  String.ofList (Decimal.plain x)

/-- What is wrong with the setting. -/
def reason : SettingFault Float → String
  | .water => "constants must be positive"
  | .powerFactor x => shown x ++ " is outside (0, 1]"
  | .voltage | .retentionNotPositive => "must be positive"
  | .retentionTooLong n => toString n ++ " exceeds 525600 (one year)"
  | .tooFewMeasurements => "at least two measurements are needed for a COP"
  | .bounds _ low high =>
    "lower bound " ++ shown low ++ " is not below upper bound " ++ shown high
  | .quality => "insufficient thresholds exceed preliminary thresholds"
  | .stableReadings | .maxHistory => "must be at least 1"

/-- The message for a fault. -/
def message (f : SettingFault Float) : String :=
  "Invalid setting " ++ f.field ++ ": " ++ f.reason

end SettingFault

end HeatMeter
