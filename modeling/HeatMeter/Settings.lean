/-
  HeatMeter.Settings
  ──────────────────
  **EVERY CONSTANT AND THRESHOLD OF THE METER.**

  Settings come in five sections.  `Settings.standard` holds the values that
  apply where nothing is configured.  Which settings are acceptable is decided
  by `HeatMeter.Settings.Check`; the definitions here accept any.
-/
import HeatMeter.Scalar
import HeatMeter.Time.Duration

namespace HeatMeter

/-- Constants of the water circuit. -/
structure WaterSettings (α : Type) where
  /-- Specific heat, kJ/(kg·K). -/
  specificHeat : α
  /-- Factor from m³/h to kg/s. -/
  flowToKgPerSecond : α
  deriving DecidableEq, Repr

/-- How electrical power is estimated. -/
structure ElectricalSettings (α : Type) where
  /-- Whether the supply has three phases. -/
  threePhase : Bool
  /-- A fixed supply voltage; the phase default applies where it is not set. -/
  voltage : Option α
  /-- Power factor. -/
  powerFactor : α
  /-- Factor from phase to line power on three phases. -/
  threePhaseFactor : α
  /-- Voltage of a single-phase supply, V. -/
  singlePhaseVoltage : α
  /-- Voltage of a three-phase supply, V. -/
  threePhaseVoltage : α
  /-- A measured power above this is in watts. -/
  wattsThreshold : α
  deriving DecidableEq, Repr

/-- The window from which a coefficient of performance is computed, and when the
result is believed. -/
structure CopSettings (α : Type) where
  /-- Minutes for which a sample is kept. -/
  retentionMinutes : Int
  /-- Seconds between two samples at least. -/
  minIntervalSeconds : Nat
  /-- The most samples kept. -/
  maxMeasurements : Nat
  /-- Bounds of the thermal energy in a window, kWh. -/
  minThermalEnergy : α
  /-- Bounds of the thermal energy in a window, kWh. -/
  maxThermalEnergy : α
  /-- Bounds of the electrical energy in a window, kWh. -/
  minElectricalEnergy : α
  /-- Bounds of the electrical energy in a window, kWh. -/
  maxElectricalEnergy : α
  /-- Bounds of a plausible coefficient. -/
  minCop : α
  /-- Bounds of a plausible coefficient. -/
  maxCop : α
  /-- Fewer samples than this are insufficient. -/
  insufficientCount : Nat
  /-- A shorter window than this is insufficient. -/
  insufficientSpanMinutes : α
  /-- Fewer samples than this are preliminary. -/
  preliminaryCount : Nat
  /-- A shorter window than this is preliminary. -/
  preliminarySpanMinutes : α
  deriving DecidableEq, Repr

/-- When temperatures are trusted again after a defrost cycle. -/
structure DefrostSettings (α : Type) where
  /-- Recovery ends after this many seconds at the latest. -/
  recoveryTimeoutSeconds : Nat
  /-- Settled readings in a row that end recovery. -/
  stableReadingsRequired : Nat
  /-- A temperature difference beyond this is settled, °C. -/
  deltaTThreshold : α
  deriving DecidableEq, Repr

/-- How much of the compressor's past is kept. -/
structure CompressorSettings where
  /-- The most durations of a kind that are kept. -/
  maxHistory : Nat
  deriving DecidableEq, Repr

/-- All settings. -/
structure Settings (α : Type) where
  /-- Constants of the water circuit. -/
  water : WaterSettings α
  /-- How electrical power is estimated. -/
  electrical : ElectricalSettings α
  /-- The window of a coefficient of performance. -/
  cop : CopSettings α
  /-- When temperatures are trusted again after a defrost cycle. -/
  defrost : DefrostSettings α
  /-- How much of the compressor's past is kept. -/
  compressor : CompressorSettings
  deriving DecidableEq, Repr

variable {α : Type} [Scalar α]

/-- Water at ordinary temperatures. -/
def WaterSettings.standard : WaterSettings α where
  specificHeat := 4.185
  flowToKgPerSecond := 0.277778

/-- A single-phase supply of 230 V. -/
def ElectricalSettings.standard : ElectricalSettings α where
  threePhase := false
  voltage := none
  powerFactor := 0.9
  threePhaseFactor := 1.732
  singlePhaseVoltage := 230.0
  threePhaseVoltage := 400.0
  wattsThreshold := 50.0

/-- A window of half an hour with a sample a minute. -/
def CopSettings.standard : CopSettings α where
  retentionMinutes := 30
  minIntervalSeconds := 60
  maxMeasurements := 500
  minThermalEnergy := 0.01
  maxThermalEnergy := 100.0
  minElectricalEnergy := 0.01
  maxElectricalEnergy := 50.0
  minCop := 0.5
  maxCop := 8.0
  insufficientCount := 5
  insufficientSpanMinutes := 5.0
  preliminaryCount := 15
  preliminarySpanMinutes := 15.0

/-- Five minutes or three settled readings. -/
def DefrostSettings.standard : DefrostSettings α where
  recoveryTimeoutSeconds := 300
  stableReadingsRequired := 3
  deltaTThreshold := 0.5

/-- A hundred durations of a kind. -/
def CompressorSettings.standard : CompressorSettings where
  maxHistory := 100

/-- The settings that apply where nothing is configured. -/
def Settings.standard : Settings α where
  water := .standard
  electrical := .standard
  cop := .standard
  defrost := .standard
  compressor := .standard

/-- The span for which a sample is kept; the longest span where the minutes are
too many, or too far below zero, for one. -/
def CopSettings.retention (s : CopSettings α) : Int :=
  let seconds := s.retentionMinutes * 60
  if seconds.natAbs ≤ 9223372036854775 then seconds * nanosPerSecond else maxSpan

/-- The shortest time between two samples. -/
def CopSettings.minInterval (s : CopSettings α) : Duration :=
  .ofSeconds s.minIntervalSeconds

/-- The longest recovery. -/
def DefrostSettings.recoveryTimeout (s : DefrostSettings α) : Duration :=
  .ofSeconds s.recoveryTimeoutSeconds

end HeatMeter
