/-
  HeatMeter.Settings.Form
  ───────────────────────
  **THE FORM IN WHICH SETTINGS ARE GIVEN.**

  Settings are given in data files and in configuration files, which agree on the
  names and the order of sections and settings and differ in what counts as a
  number or a truth value.  A `ValueForm` says how a kind of document answers
  those questions; the settings themselves are read once, over any form.  Every
  section and every setting may be missing and then has its standard value.
-/
import HeatMeter.Json.Decode
import HeatMeter.Settings

namespace HeatMeter

/-- The kinds of machine word that whole-number settings are kept in. -/
inductive Word where
  /-- 64 bits with a sign. -/
  | signed64
  /-- 64 bits without a sign. -/
  | unsigned64
  /-- 32 bits without a sign. -/
  | unsigned32
  deriving DecidableEq, Repr

/-- The least number of a word. -/
def Word.least : Word → Int
  | .signed64 => -9223372036854775808
  | .unsigned64 | .unsigned32 => 0

/-- The greatest number of a word. -/
def Word.greatest : Word → Int
  | .signed64 => 9223372036854775807
  | .unsigned64 => 18446744073709551615
  | .unsigned32 => 4294967295

/-- How a kind of document gives sections and values. -/
structure ValueForm (V : Type) where
  /-- The values of a section by the names of its settings. -/
  entries? : List String → V → Option (List (String × V))
  /-- A quantity. -/
  float? : V → Option Float
  /-- A truth value. -/
  bool? : V → Option Bool
  /-- A whole number of a word. -/
  integer? : Word → V → Option Int
  /-- Whether a value says that a setting is not set. -/
  isUnset : V → Bool

namespace ValueForm

variable {V β : Type} (F : ValueForm V)

/-- A setting with its standard value. -/
def setting (f : List (String × V)) (name : String) (standard : β) (read : V → Option β) :
    Option β :=
  match f.lookup name with
  | some x => read x
  | none => some standard

/-- A whole number that is not negative. -/
def natural? (w : Word) (x : V) : Option Nat :=
  (F.integer? w x).map Int.toNat

/-- A quantity that may be unset. -/
def optionalFloat? (x : V) : Option (Option Float) :=
  if F.isUnset x then some none else (F.float? x).map some

/-- The water section. -/
def water? (x : V) : Option (WaterSettings Float) := do
  let s : WaterSettings Float := .standard
  let f ← F.entries? ["specific_heat", "flow_to_kg_per_s"] x
  return {
    specificHeat := ← setting f "specific_heat" s.specificHeat F.float?
    flowToKgPerSecond := ← setting f "flow_to_kg_per_s" s.flowToKgPerSecond F.float? }

/-- The electrical section. -/
def electrical? (x : V) : Option (ElectricalSettings Float) := do
  let s : ElectricalSettings Float := .standard
  let f ← F.entries? ["three_phase", "voltage", "power_factor", "three_phase_factor",
    "single_phase_voltage", "three_phase_voltage", "watts_threshold"] x
  return {
    threePhase := ← setting f "three_phase" s.threePhase F.bool?
    voltage := ← setting f "voltage" s.voltage F.optionalFloat?
    powerFactor := ← setting f "power_factor" s.powerFactor F.float?
    threePhaseFactor := ← setting f "three_phase_factor" s.threePhaseFactor F.float?
    singlePhaseVoltage := ← setting f "single_phase_voltage" s.singlePhaseVoltage F.float?
    threePhaseVoltage := ← setting f "three_phase_voltage" s.threePhaseVoltage F.float?
    wattsThreshold := ← setting f "watts_threshold" s.wattsThreshold F.float? }

/-- The section of a window. -/
def cop? (x : V) : Option (CopSettings Float) := do
  let s : CopSettings Float := .standard
  let f ← F.entries? ["retention_minutes", "min_interval_seconds", "max_measurements",
    "min_thermal_energy", "max_thermal_energy", "min_electrical_energy",
    "max_electrical_energy", "min_cop", "max_cop", "insufficient_count",
    "insufficient_span_minutes", "preliminary_count", "preliminary_span_minutes"] x
  let count (name : String) (standard : Nat) :=
    setting f name standard (F.natural? .unsigned64)
  let quantity (name : String) (standard : Float) := setting f name standard F.float?
  return {
    retentionMinutes :=
      ← setting f "retention_minutes" s.retentionMinutes (F.integer? .signed64)
    minIntervalSeconds := ← count "min_interval_seconds" s.minIntervalSeconds
    maxMeasurements := ← count "max_measurements" s.maxMeasurements
    minThermalEnergy := ← quantity "min_thermal_energy" s.minThermalEnergy
    maxThermalEnergy := ← quantity "max_thermal_energy" s.maxThermalEnergy
    minElectricalEnergy := ← quantity "min_electrical_energy" s.minElectricalEnergy
    maxElectricalEnergy := ← quantity "max_electrical_energy" s.maxElectricalEnergy
    minCop := ← quantity "min_cop" s.minCop
    maxCop := ← quantity "max_cop" s.maxCop
    insufficientCount := ← count "insufficient_count" s.insufficientCount
    insufficientSpanMinutes :=
      ← quantity "insufficient_span_minutes" s.insufficientSpanMinutes
    preliminaryCount := ← count "preliminary_count" s.preliminaryCount
    preliminarySpanMinutes :=
      ← quantity "preliminary_span_minutes" s.preliminarySpanMinutes }

/-- The defrost section. -/
def defrost? (x : V) : Option (DefrostSettings Float) := do
  let s : DefrostSettings Float := .standard
  let f ← F.entries? ["recovery_timeout_seconds", "stable_readings_required",
    "delta_t_threshold"] x
  return {
    recoveryTimeoutSeconds :=
      ← setting f "recovery_timeout_seconds" s.recoveryTimeoutSeconds (F.natural? .unsigned64)
    stableReadingsRequired :=
      ← setting f "stable_readings_required" s.stableReadingsRequired (F.natural? .unsigned32)
    deltaTThreshold := ← setting f "delta_t_threshold" s.deltaTThreshold F.float? }

/-- The compressor section. -/
def compressor? (x : V) : Option CompressorSettings := do
  let f ← F.entries? ["max_history"] x
  return {
    maxHistory :=
      ← setting f "max_history" CompressorSettings.standard.maxHistory (F.natural? .unsigned64) }

/-- All sections. -/
def settings? (x : V) : Option (Settings Float) := do
  let f ← F.entries? ["water", "electrical", "cop", "defrost", "compressor"] x
  return {
    water := ← setting f "water" .standard F.water?
    electrical := ← setting f "electrical" .standard F.electrical?
    cop := ← setting f "cop" .standard F.cop?
    defrost := ← setting f "defrost" .standard F.defrost?
    compressor := ← setting f "compressor" .standard F.compressor? }

end ValueForm

/-- Settings as a data file gives them: sections are lenient records and every
value has its own type. -/
def dataForm : ValueForm Json where
  entries? := Json.fields .lenient
  float? := Json.asFloat
  bool? := Json.asBool
  integer? := fun w => Json.asIntegerWithin w.least w.greatest
  isUnset := fun
    | .null => true
    | _ => false

end HeatMeter
