/-
  HeatMeter.Defrost
  ─────────────────
  **WHEN TEMPERATURES CANNOT BE TRUSTED.**

  While a unit defrosts, its water temperatures say nothing about the heat it
  delivers, and for a while afterwards neither.  The watch goes through three
  phases:

      normal    →  defrost    a reading reports defrosting
      defrost   →  recovery   a reading no longer does
      recovery  →  normal     the temperature difference has settled on the sign
                              it had before, for enough readings in a row, or
                              the recovery has lasted too long
      recovery  →  defrost    a reading reports defrosting again

  The sign before is that of the reading which began the defrost; where it is
  unknown only time ends the recovery.
-/
import HeatMeter.Settings

namespace HeatMeter

/-- The phases around a defrost cycle. -/
inductive DefrostPhase where
  /-- Temperatures are reliable. -/
  | normal
  /-- The unit defrosts. -/
  | defrost
  /-- The circuit settles after a defrost. -/
  | recovery
  deriving DecidableEq, Repr

/-- The name of a phase. -/
def DefrostPhase.name : DefrostPhase → String
  | .normal => "normal"
  | .defrost => "defrost"
  | .recovery => "recovery"

/-- What is remembered across readings. -/
structure DefrostWatch where
  /-- The phase. -/
  phase : DefrostPhase := .normal
  /-- Whether the difference was positive when the defrost began, if known. -/
  positiveBefore : Option Bool := none
  /-- Settled readings in a row. -/
  stableReadings : Nat := 0
  /-- Monotonic time at which the recovery began. -/
  recoveryStart : Option Duration := none
  deriving DecidableEq, Repr

namespace DefrostWatch

variable {α : Type} [Scalar α]

/-- A watch that has seen nothing. -/
def fresh : DefrostWatch := {}

/-- Whether temperatures can be trusted. -/
def reliable (w : DefrostWatch) : Bool :=
  w.phase = .normal

/-- Whether a difference has settled beyond the threshold on the given side. -/
def settled (s : DefrostSettings α) (positive : Bool) (deltaT : α) : Bool :=
  if positive then decide (s.deltaTThreshold < deltaT)
  else decide (deltaT < -s.deltaTThreshold)

/-- One reading during recovery. -/
def recover (s : DefrostSettings α) (w : DefrostWatch) (defrosting : Bool)
    (deltaT : Option α) (now : Duration) : DefrostWatch :=
  if defrosting then
    { w with phase := .defrost, stableReadings := 0 }
  else if s.recoveryTimeout ≤ now.saturatingSub (w.recoveryStart.getD now) then
    { w with phase := .normal, stableReadings := 0 }
  else
    match deltaT, w.positiveBefore with
    | some dt, some positive =>
      if settled s positive dt then
        if s.stableReadingsRequired ≤ w.stableReadings + 1 then
          { w with phase := .normal, stableReadings := 0 }
        else
          { w with stableReadings := w.stableReadings + 1 }
      else
        { w with stableReadings := 0 }
    | _, _ => { w with stableReadings := 0 }

/-- One reading at monotonic time `now`. -/
def observe (s : DefrostSettings α) (w : DefrostWatch) (defrosting : Bool)
    (deltaT : Option α) (now : Duration) : DefrostWatch :=
  match w.phase with
  | .normal =>
    if defrosting then
      { w with phase := .defrost, positiveBefore := deltaT.map fun dt => decide (0 < dt) }
    else w
  | .defrost =>
    if defrosting then w
    else { w with phase := .recovery, stableReadings := 0, recoveryStart := some now }
  | .recovery => recover s w defrosting deltaT now

end DefrostWatch

end HeatMeter
