/-
  HeatMeter.Proofs.Meter.Run
  ──────────────────────────
  **THE WATCHES OF A METER STAY IN STEP.**

  A meter keeps six watches over defrost cycles: its own, which decides whether heat
  is counted, and one in each of its five sensors, which decides whether a sample is
  taken.  They are copies of one machine.  Whatever happens to a meter and its clock,

      a reading is shown to all six at the same reading of the clock,
      recorded channels are shown to none of them,
      a move of the clock touches no meter,

  so the six are equal after every run: `InStep.take` is one event, `InStep.after` a
  run.  A reading that leaves the meter's watch unreliable is therefore sampled by no
  sensor.
-/
import HeatMeter.Proofs.Replay

namespace HeatMeter

variable {α : Type}

/-! ## §1. What can happen to a meter and its clock. -/

/-- One thing that happens to a meter or to its clock. -/
inductive MeterEvent (α : Type) where
  /-- A reading is metered. -/
  | poll (r : Reading α)
  /-- Recorded channels are shown. -/
  | backfill (channels : Channels α)
  /-- The clock is set, backwards or forwards. -/
  | set (target : Instant)
  /-- The clock runs. -/
  | advance (step : Duration)

namespace Replay

variable [Scalar α]

/-- A meter that begins, from a snapshot if there is one, under a clock that may have
run already. -/
def opening (s : Settings α) (kept : Option (EnergySnapshot α)) (clock : Clock) :
    Replay α :=
  { startingAt s kept clock.now with clock := clock }

/-- The meter and its clock after one event; a move of the clock that overflows stops
where it is. -/
def take (p : Replay α) : MeterEvent α → Replay α
  | .poll r => { p with meter := p.meter.poll r p.clock }
  | .backfill channels => { p with meter := p.meter.backfill channels p.clock }
  | .set target => { p with clock := (p.clock.set target).1 }
  | .advance step => { p with clock := (p.clock.advance step).1 }

/-- The meter and its clock after events. -/
def after (p : Replay α) (events : List (MeterEvent α)) : Replay α :=
  events.foldl take p

theorem after_append (p : Replay α) (events more : List (MeterEvent α)) :
    p.after (events ++ more) = (p.after events).after more :=
  List.foldl_append

theorem after_concat (p : Replay α) (events : List (MeterEvent α)) (e : MeterEvent α) :
    p.after (events ++ [e]) = (p.after events).take e := by
  rw [after_append]
  rfl

end Replay

/-! ## §2. What the events do to a sensor. -/

variable [Scalar α]

namespace CopSensor

/-- While the watch is not normal no sample is taken. -/
theorem taken?_of_unreliable {c : CopSensor α} {r : Reading α} {clock : Clock}
    (h : (c.watched r clock).watch.reliable = false) : c.taken? r clock = none := by
  have hlive : (c.watched r clock).liveSample? r clock.elapsed = none := by
    unfold liveSample?
    rw [h, Bool.false_and, Bool.false_and, Bool.false_and]
    rfl
  rw [taken?, hlive, Option.map_none]

end CopSensor

namespace Meter

theorem sensor_backfill (m : Meter α) (channels : Channels α) (clock : Clock)
    (mode : Option Mode) :
    (m.backfill channels clock).sensor mode
      = if channels.isEmpty then m.sensor mode
        else ((m.sensor mode).backfill channels clock).1 := by
  unfold backfill
  by_cases hempty : channels.isEmpty = true
  · rw [if_pos hempty, if_pos hempty]
  · rw [if_neg hempty, if_neg hempty]
    cases mode with
    | none => rfl
    | some k => exact PerMode.get_map _ _ k

/-- Recorded channels are shown to no watch and to no counter. -/
theorem backfill_keeps (m : Meter α) (channels : Channels α) (clock : Clock) :
    (m.backfill channels clock).settings = m.settings
      ∧ (m.backfill channels clock).watch = m.watch
      ∧ (m.backfill channels clock).heat = m.heat := by
  unfold backfill
  split
  · exact ⟨rfl, rfl, rfl⟩
  · exact ⟨rfl, rfl, rfl⟩

/-! ## §3. The watches of a meter. -/

/-- Every sensor has the settings and the watch of its meter. -/
structure InStep (m : Meter α) : Prop where
  settings : ∀ mode, (m.sensor mode).settings = m.settings
  watch : ∀ mode, (m.sensor mode).watch = m.watch

theorem inStep_withHeat (s : Settings α) (heat : HeatCounter α) : (withHeat s heat).InStep := by
  constructor
  · intro mode
    rw [sensor_withHeat]
    rfl
  · intro mode
    rw [sensor_withHeat]
    rfl

section

variable {m : Meter α}

/-- One reading moves all watches alike. -/
theorem InStep.poll (h : m.InStep) (r : Reading α) (clock : Clock) :
    (m.poll r clock).InStep := by
  constructor
  · intro mode
    rw [sensor_poll, CopSensor.settings_poll, h.settings]
    rfl
  · intro mode
    rw [sensor_poll, CopSensor.watch_poll, h.settings, h.watch]
    rfl

theorem InStep.backfill (h : m.InStep) (channels : Channels α) (clock : Clock) :
    (m.backfill channels clock).InStep := by
  obtain ⟨hsettings, hwatch, -⟩ := backfill_keeps m channels clock
  have hsensor : ∀ mode, ((m.backfill channels clock).sensor mode).settings = m.settings
      ∧ ((m.backfill channels clock).sensor mode).watch = m.watch := by
    intro mode
    rw [sensor_backfill]
    split
    · exact ⟨h.settings mode, h.watch mode⟩
    · obtain ⟨hs, hw⟩ := CopSensor.backfill_keeps (m.sensor mode) channels clock
      exact ⟨hs.trans (h.settings mode), hw.trans (h.watch mode)⟩
  constructor
  · intro mode
    rw [hsettings]
    exact (hsensor mode).1
  · intro mode
    rw [hwatch]
    exact (hsensor mode).2

/-- **A reading that leaves the watch unreliable is sampled by no sensor.** -/
theorem InStep.window_poll (h : m.InStep) {r : Reading α} {clock : Clock}
    (hoff : (m.poll r clock).watch.reliable = false) (mode : Option Mode) :
    ((m.poll r clock).sensor mode).window = (m.sensor mode).window := by
  have hwatch : ((m.sensor mode).watched r clock).watch = (m.poll r clock).watch := by
    show (m.sensor mode).watch.observe (m.sensor mode).settings.defrost _ _ _ = _
    rw [h.settings, h.watch]
    rfl
  rw [← hwatch] at hoff
  rw [sensor_poll, CopSensor.poll_of_none (CopSensor.taken?_of_unreliable hoff)]
  rfl

end

end Meter

/-! ## §4. Whole runs. -/

namespace Replay

theorem inStep_opening (s : Settings α) (kept : Option (EnergySnapshot α)) (clock : Clock) :
    (opening s kept clock).meter.InStep := by
  cases kept with
  | none => exact Meter.inStep_withHeat s _
  | some kept => exact Meter.inStep_withHeat s _

theorem inStep_take {p : Replay α} (h : p.meter.InStep) (e : MeterEvent α) :
    (p.take e).meter.InStep := by
  cases e with
  | poll r => exact h.poll r p.clock
  | backfill channels => exact h.backfill channels p.clock
  | set target => exact h
  | advance step => exact h

theorem inStep_after {p : Replay α} (h : p.meter.InStep) (events : List (MeterEvent α)) :
    (p.after events).meter.InStep := by
  induction events generalizing p with
  | nil => exact h
  | cons e rest ih => exact ih (inStep_take h e)

/-- **The watches of a meter are equal after every run**, and a reading after which the
meter shows unreliable data leaves every window as it was. -/
theorem watches_in_step (s : Settings α) (kept : Option (EnergySnapshot α)) (clock : Clock)
    (events : List (MeterEvent α)) (mode : Option Mode) :
    (((opening s kept clock).after events).meter.sensor mode).watch
        = ((opening s kept clock).after events).meter.watch
      ∧ ∀ r : Reading α,
          (((opening s kept clock).after events).take (.poll r)).meter.summary.reliable = false →
          ((((opening s kept clock).after events).take (.poll r)).meter.sensor mode).window
            = (((opening s kept clock).after events).meter.sensor mode).window := by
  have hstep := inStep_after (inStep_opening s kept clock) events
  refine ⟨hstep.watch mode, ?_⟩
  intro r hoff
  exact hstep.window_poll hoff mode

/-- A steady unit that begins to defrost in its second minute. -/
theorem watches_in_step_of_defrost :
    (((opening (.standard : Settings Float) none (.startingAt (.ofFirstDay 0))).after
        [.poll (CopSensor.steadyReading 50), .set (.ofFirstDay 60)]).take
        (.poll { CopSensor.steadyReading 50 with defrost := some true })).meter.summary.reliable
          = false
      ∧ ((((opening (.standard : Settings Float) none (.startingAt (.ofFirstDay 0))).after
        [.poll (CopSensor.steadyReading 50), .set (.ofFirstDay 60)]).take
        (.poll { CopSensor.steadyReading 50 with defrost := some true })).meter.sensor
          none).window.samples.size = 1 := by
  have hoff : (((opening (.standard : Settings Float) none (.startingAt (.ofFirstDay 0))).after
      [.poll (CopSensor.steadyReading 50), .set (.ofFirstDay 60)]).take
      (.poll { CopSensor.steadyReading 50 with defrost := some true })).meter.summary.reliable
        = false := by decide +kernel
  refine ⟨hoff, ?_⟩
  rw [(watches_in_step .standard none (.startingAt (.ofFirstDay 0))
    [.poll (CopSensor.steadyReading 50), .set (.ofFirstDay 60)] none).2 _ hoff]
  decide +kernel

end Replay

end HeatMeter
