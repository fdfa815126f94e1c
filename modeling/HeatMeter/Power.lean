/-
  HeatMeter.Power
  ───────────────
  **THERMAL AND ELECTRICAL POWER FROM RAW READINGS.**

  Thermal power is mass flow times specific heat times temperature rise, in kW,
  and so has the sign of the rise.  Electrical power is the measured one where
  there is one, in W or kW by its size, and otherwise estimated from voltage and
  current.  The factors are multiplied in the order written.
-/
import HeatMeter.Settings

namespace HeatMeter

/-- What the electrical power of one compressor is computed from. -/
structure Load (α : Type) where
  /-- Current, A. -/
  current : α
  /-- A power measured directly, W or kW. -/
  measured : Option α := none
  /-- Supply voltage, V; the phase default where it is unknown. -/
  voltage : Option α := none
  /-- Whether the supply has three phases. -/
  threePhase : Bool := false
  deriving DecidableEq, Repr

namespace Power

variable {α : Type} [Scalar α]

/-- Thermal power, positive when the outlet is warmer than the inlet. -/
def thermal (water : WaterSettings α) (inlet outlet flow : α) : α :=
  flow * water.flowToKgPerSecond * water.specificHeat * (outlet - inlet)

/-- Thermal power that heats the water. -/
def heating (water : WaterSettings α) (inlet outlet flow : α) : α :=
  Scalar.positivePart (thermal water inlet outlet flow)

/-- Thermal power that cools the water. -/
def cooling (water : WaterSettings α) (inlet outlet flow : α) : α :=
  Scalar.positivePart (-thermal water inlet outlet flow)

/-- Electrical power of one compressor, kW. -/
def electrical (s : ElectricalSettings α) (load : Load α) : α :=
  match load.measured with
  | some p => if s.wattsThreshold < p then p / Scalar.ofInt 1000 else p
  | none =>
    if load.threePhase then
      load.voltage.getD s.threePhaseVoltage * load.current * s.powerFactor
        * s.threePhaseFactor / Scalar.ofInt 1000
    else
      load.voltage.getD s.singlePhaseVoltage * load.current * s.powerFactor
        / Scalar.ofInt 1000

end Power

/-- How powers are computed; the meter takes the rule as a value. -/
structure PowerRule (α : Type) where
  /-- Thermal power of inlet and outlet temperature and flow. -/
  thermal : WaterSettings α → α → α → α → α
  /-- Electrical power of a load. -/
  electrical : ElectricalSettings α → Load α → α

/-- The physical rule. -/
def PowerRule.physical {α : Type} [Scalar α] : PowerRule α :=
  ⟨Power.thermal, Power.electrical⟩

end HeatMeter
