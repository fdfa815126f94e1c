/-
  HeatMeter.Reading
  ─────────────────
  **ONE POLL OF THE UNIT'S SENSORS.**

  Every sensor may be silent.  A compressor runs when its frequency is known and
  above zero; the unit is defrosting only when it says so.
-/
import HeatMeter.Mode
import HeatMeter.Scalar

namespace HeatMeter

/-- What the sensors showed at one poll. -/
structure Reading (α : Type) where
  /-- Water temperature at the inlet, °C. -/
  inlet : Option α := none
  /-- Water temperature at the outlet, °C. -/
  outlet : Option α := none
  /-- Water flow, m³/h. -/
  flow : Option α := none
  /-- Current of the compressor, A. -/
  current : Option α := none
  /-- Frequency of the compressor, Hz. -/
  frequency : Option α := none
  /-- Measured power of the compressor, W or kW. -/
  power : Option α := none
  /-- Supply voltage, V. -/
  voltage : Option α := none
  /-- Current of the second compressor, A. -/
  secondCurrent : Option α := none
  /-- Frequency of the second compressor, Hz. -/
  secondFrequency : Option α := none
  /-- Whether the unit reports a defrost cycle. -/
  defrost : Option Bool := none
  /-- What the unit is working for. -/
  mode : Option Mode := none
  deriving DecidableEq, Repr

/-- Whether a compressor of this frequency runs. -/
def isRunning {α : Type} [Scalar α] (frequency : Option α) : Bool :=
  match frequency with
  | some f => decide (0 < f)
  | none => false

namespace Reading

variable {α : Type} [Scalar α]

/-- Outlet minus inlet, when both temperatures are known. -/
def deltaT (r : Reading α) : Option α :=
  match r.inlet, r.outlet with
  | some i, some o => some (o - i)
  | _, _ => none

/-- Whether the compressor runs. -/
def running (r : Reading α) : Bool :=
  isRunning r.frequency

/-- Whether the second compressor runs. -/
def secondRunning (r : Reading α) : Bool :=
  isRunning r.secondFrequency

/-- Whether the unit says that it is defrosting. -/
def defrosting (r : Reading α) : Bool :=
  r.defrost.getD false

end Reading

end HeatMeter
