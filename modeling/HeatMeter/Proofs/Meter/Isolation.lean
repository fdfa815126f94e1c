/-
  HeatMeter.Proofs.Meter.Isolation
  ────────────────────────────────
  **A MODE'S SENSOR LEARNS OF OTHER MODES NOTHING BUT DEFROST AND DIFFERENCE.**

  Two runs are compared whose clocks are moved alike and whose readings pair up.  For
  the sensor of a mode two readings are ALIKE when

      both report defrosting or neither does,
      both show the same temperature difference,
      both are in the mode or neither is, and in the mode they are the same reading.

  A reading outside the mode moves the sensor's watch, which sees no more of it than
  defrost and difference, and stops at the mode's gate before it can take a sample, start
  an interval or evict anything.  So one event keeps the two sensors EQUAL, deadline
  and watch included: `SameFor.take` is one event, `SameFor.after` a run, and
  `sensor_isolated` is what the sensors then show.
-/
import HeatMeter.Proofs.Meter.Run

namespace HeatMeter

variable {α : Type} [Scalar α]

/-! ## §1. Readings that a mode's sensor cannot tell apart. -/

/-- Two readings that may differ only outside a mode, and there in neither defrost nor
difference. -/
structure Reading.AlikeFor (mode : Mode) (r r' : Reading α) : Prop where
  /-- Both report defrosting or neither does. -/
  defrosting : r.defrosting = r'.defrosting
  /-- Both show the same temperature difference. -/
  deltaT : r.deltaT = r'.deltaT
  /-- Both are in the mode or neither is. -/
  inMode : r.mode = some mode ↔ r'.mode = some mode
  /-- In the mode they are the same. -/
  same : r.mode = some mode → r = r'

/-- Events of two runs that pair up: the same move of the clock, or readings that are
alike.  Recorded channels are shown to neither meter. -/
inductive MeterEvent.AlikeFor (mode : Mode) : MeterEvent α → MeterEvent α → Prop where
  /-- Both meters are shown readings that are alike. -/
  | poll {r r' : Reading α} (h : r.AlikeFor mode r') : AlikeFor mode (.poll r) (.poll r')
  /-- Both clocks are set to the same instant. -/
  | set (target : Instant) : AlikeFor mode (.set target) (.set target)
  /-- Both clocks run for the same time. -/
  | advance (step : Duration) : AlikeFor mode (.advance step) (.advance step)

/-! ## §2. One reading. -/

namespace CopSensor

variable {c : CopSensor α} {mode : Mode} {r r' : Reading α}

/-- A reading outside its mode gives a sensor no sample. -/
theorem taken?_of_other (hc : c.mode = some mode) (hr : r.mode ≠ some mode) (clock : Clock) :
    c.taken? r clock = none := by
  have haccepts : (c.watched r clock).accepts r.mode = false := by
    unfold accepts watched
    rw [hc]
    cases hmode : r.mode with
    | none => rfl
    | some other =>
      have hne : mode ≠ other := fun h => hr (by rw [hmode, h])
      exact decide_eq_false hne
  have hlive : (c.watched r clock).liveSample? r clock.elapsed = none := by
    unfold liveSample?
    rw [haccepts, Bool.and_false, Bool.false_and, Bool.false_and]
    rfl
  rw [taken?, hlive, Option.map_none]

/-- **Readings that are alike for a sensor's mode leave it in the same state.** -/
theorem poll_of_alike (hc : c.mode = some mode) (h : r.AlikeFor mode r') (clock : Clock) :
    c.poll r clock = c.poll r' clock := by
  by_cases hmode : r.mode = some mode
  · rw [h.same hmode]
  · -- outside the mode only the watch moves, and it sees the same on both sides
    have hmode' : r'.mode ≠ some mode := fun h' => hmode (h.inMode.2 h')
    rw [poll_of_none (taken?_of_other hc hmode clock),
      poll_of_none (taken?_of_other hc hmode' clock), watched, watched, h.defrosting, h.deltaT]

end CopSensor

/-! ## §3. Whole runs. -/

namespace Replay

variable {mode : Mode} {p p' : Replay α}

/-- Two runs that a mode's sensor cannot tell apart. -/
structure SameFor (mode : Mode) (p p' : Replay α) : Prop where
  /-- Both clocks show the same. -/
  clock : p.clock = p'.clock
  /-- Both sensors of the mode are in the same state. -/
  sensor : p.meter.sensor (some mode) = p'.meter.sensor (some mode)
  /-- The sensor of the mode is one for the mode. -/
  ofMode : (p.meter.sensor (some mode)).mode = some mode

theorem sameFor_opening (s : Settings α) (mode : Mode) (kept kept' : Option (EnergySnapshot α))
    (clock : Clock) : SameFor mode (opening s kept clock) (opening s kept' clock) := by
  have hfresh (k : Option (EnergySnapshot α)) :
      (opening s k clock).meter.sensor (some mode) = .fresh s (some mode) :=
    sensor_startingAt s k clock.now (some mode)
  refine ⟨rfl, ?_, ?_⟩
  · rw [hfresh, hfresh]
  · rw [hfresh]
    rfl

/-- **One event on each side** leaves the sensor of the mode the same. -/
theorem SameFor.take (h : SameFor mode p p') {e e' : MeterEvent α} (he : e.AlikeFor mode e') :
    SameFor mode (p.take e) (p'.take e') := by
  cases he with
  | poll hr =>
    refine ⟨h.clock, ?_, ?_⟩
    · show (p.meter.poll _ p.clock).sensor (some mode) = (p'.meter.poll _ p'.clock).sensor _
      rw [Meter.sensor_poll, Meter.sensor_poll, ← h.clock, ← h.sensor]
      exact CopSensor.poll_of_alike h.ofMode hr p.clock
    · show ((p.meter.poll _ p.clock).sensor (some mode)).mode = _
      rw [Meter.sensor_poll, CopSensor.mode_poll, h.ofMode]
  | set target =>
    refine ⟨?_, h.sensor, h.ofMode⟩
    show (p.clock.set target).1 = (p'.clock.set target).1
    rw [h.clock]
  | advance step =>
    refine ⟨?_, h.sensor, h.ofMode⟩
    show (p.clock.advance step).1 = (p'.clock.advance step).1
    rw [h.clock]

theorem SameFor.after (h : SameFor mode p p') {events events' : List (MeterEvent α)}
    (hevents : List.Forall₂ (MeterEvent.AlikeFor mode) events events') :
    SameFor mode (p.after events) (p'.after events') := by
  induction hevents generalizing p p' with
  | nil => exact h
  | cons he _ ih => exact ih (h.take he)

/-- **What a mode's sensor shows does not depend on readings outside the mode**, their
defrost and difference apart, nor on the counters that the meter began with: after any
number of events its window, value and quality are the same in both runs. -/
theorem sensor_isolated (s : Settings α) (mode : Mode) (kept kept' : Option (EnergySnapshot α))
    (clock : Clock) {events events' : List (MeterEvent α)}
    (hevents : List.Forall₂ (MeterEvent.AlikeFor mode) events events') (n : Nat) :
    (((opening s kept clock).after (events.take n)).meter.sensor (some mode)).window
        = (((opening s kept' clock).after (events'.take n)).meter.sensor (some mode)).window
      ∧ (((opening s kept clock).after (events.take n)).meter.sensor (some mode)).value?
        = (((opening s kept' clock).after (events'.take n)).meter.sensor (some mode)).value?
      ∧ (((opening s kept clock).after (events.take n)).meter.sensor (some mode)).quality
        = (((opening s kept' clock).after (events'.take n)).meter.sensor (some mode)).quality := by
  have hsame := (sameFor_opening s mode kept kept' clock).after (List.forall₂_take n hevents)
  rw [hsame.sensor]
  exact ⟨rfl, rfl, rfl⟩

/-- The steady unit while it makes hot water, with this flow and current. -/
def hotWaterReading (flow current : Float) : Reading Float :=
  { CopSensor.steadyReading 40 with
    flow := some flow, current := some current, mode := some .dhw }

/-- A minute of hot water between two readings of heating. -/
def hotWaterBetween (flow current : Float) : List (MeterEvent Float) :=
  [.poll (CopSensor.steadyReading 50), .set (.ofFirstDay 60),
    .poll (hotWaterReading flow current), .set (.ofFirstDay 120),
    .poll (CopSensor.steadyReading 52)]

theorem alikeFor_hotWaterBetween (flow flow' current current' : Float) :
    List.Forall₂ (MeterEvent.AlikeFor .heating) (hotWaterBetween flow current)
      (hotWaterBetween flow' current') := by
  have hsteady (frequency : Float) : (CopSensor.steadyReading frequency).AlikeFor .heating
      (CopSensor.steadyReading frequency) := ⟨rfl, rfl, Iff.rfl, fun _ => rfl⟩
  have hwater : (hotWaterReading flow current).AlikeFor .heating
      (hotWaterReading flow' current') := ⟨rfl, rfl, Iff.rfl, fun h => by cases h⟩
  exact .cons (.poll (hsteady 50)) (.cons (.set _) (.cons (.poll hwater)
    (.cons (.set _) (.cons (.poll (hsteady 52)) .nil))))

/-- The flow and the current of the hot water do not show in the window for heating, which
holds two samples, and they do in the window for all modes. -/
theorem sensor_isolated_from_hotWater :
    (((opening .standard none (.startingAt (.ofFirstDay 0))).after
        ((hotWaterBetween 1 5).take 5)).meter.sensor (some .heating)).window
      = (((opening .standard none (.startingAt (.ofFirstDay 0))).after
        ((hotWaterBetween 2 9).take 5)).meter.sensor (some .heating)).window
    ∧ (((opening .standard none (.startingAt (.ofFirstDay 0))).after
        ((hotWaterBetween 2 9).take 5)).meter.sensor (some .heating)).window.samples.size = 2
    ∧ (((opening .standard none (.startingAt (.ofFirstDay 0))).after
        ((hotWaterBetween 1 5).take 5)).meter.sensor none).window
      ≠ (((opening .standard none (.startingAt (.ofFirstDay 0))).after
        ((hotWaterBetween 2 9).take 5)).meter.sensor none).window := by
  refine ⟨?_, by decide +kernel, by decide +kernel⟩
  exact (sensor_isolated .standard .heating none none (.startingAt (.ofFirstDay 0))
    (alikeFor_hotWaterBetween 1 2 5 9) 5).1

end Replay

end HeatMeter
