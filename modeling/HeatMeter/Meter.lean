/-
  HeatMeter.Meter
  ───────────────
  **THE METER OF ONE UNIT.**

  A meter hands every reading to its parts: a watch over defrost cycles, the
  compressor log, a COP sensor for all modes and one for each, and the heat
  counter.  Heat is counted as zero while temperatures are not reliable; a
  reading that lacks an inlet, outlet or flow then leaves the counter alone.
-/
import HeatMeter.Compressor
import HeatMeter.Cop.Sensor
import HeatMeter.Heat

namespace HeatMeter

/-- Everything the meter knows about its unit. -/
structure Meter (α : Type) where
  /-- Settings of the meter. -/
  settings : Settings α
  /-- Whether temperatures are reliable. -/
  watch : DefrostWatch
  /-- Heating and cooling energy. -/
  heat : HeatCounter α
  /-- The COP sensor for every mode. -/
  cop : CopSensor α
  /-- The COP sensors for one mode each. -/
  copByMode : PerMode (CopSensor α)
  /-- Runs and rests of the compressor. -/
  compressor : CompressorLog α

/-- A coefficient of performance with its quality. -/
structure CopReport (α : Type) where
  /-- The coefficient to two places, where it is believable. -/
  value : Option α
  /-- How far it can be believed. -/
  quality : Quality α
  deriving DecidableEq, Repr

/-- What the meter shows, energies and powers to two places. -/
structure Summary (α : Type) where
  /-- The coefficient over all modes. -/
  cop : CopReport α
  /-- The coefficient of each mode. -/
  copByMode : PerMode (CopReport α)
  /-- Powers last counted, kW. -/
  power : ByKind α
  /-- Energy of the day, kWh. -/
  daily : ByKind α
  /-- Energy ever, kWh. -/
  total : ByKind α
  /-- When the daily counters started. -/
  dayStart : Instant
  /-- Mean durations of the compressor. -/
  compressor : CompressorTimes α
  /-- The phase around a defrost cycle. -/
  phase : DefrostPhase
  /-- Whether temperatures are reliable. -/
  reliable : Bool
  deriving DecidableEq, Repr

namespace Meter

variable {α : Type} [Scalar α]

/-- A meter that counts heat with the given counter and has seen nothing. -/
def withHeat (s : Settings α) (heat : HeatCounter α) : Meter α where
  settings := s
  watch := .fresh
  heat := heat
  cop := .fresh s none
  copByMode := .ofFn fun m => .fresh s (some m)
  compressor := .ofCapacity s.compressor.maxHistory

/-- A meter that starts at an instant. -/
def startingAt (s : Settings α) (now : Instant) : Meter α :=
  withHeat s (.startingAt now)

/-- A meter that goes on from a snapshot. -/
def restore (s : Settings α) (snapshot : EnergySnapshot α) (now : Instant) : Meter α :=
  withHeat s (.restore snapshot now)

/-- Heating and cooling power of a reading, none when a water input is missing. -/
def powers? (s : Settings α) (reliable : Bool) (r : Reading α) : Option (ByKind α) :=
  if reliable then
    match r.inlet, r.outlet, r.flow with
    | some inlet, some outlet, some flow =>
      some ⟨Power.heating s.water inlet outlet flow, Power.cooling s.water inlet outlet flow⟩
    | _, _, _ => none
  else some (.both 0)

/-- Take in a reading. -/
def poll (m : Meter α) (r : Reading α) (clock : Clock) : Meter α :=
  let watch := m.watch.observe m.settings.defrost r.defrosting r.deltaT clock.elapsed
  let heat := match powers? m.settings watch.reliable r with
    | some p => m.heat.update p r.running r.mode clock.now
    | none => m.heat
  { m with
    watch := watch
    compressor := m.compressor.observe r.running clock.now
    cop := m.cop.poll r clock
    copByMode := m.copByMode.map fun c => c.poll r clock
    heat := heat }

/-- Take in recorded channels: they fill the COP windows and the compressor log. -/
def backfill (m : Meter α) (channels : Channels α) (clock : Clock) : Meter α :=
  if channels.isEmpty then m
  else
    { m with
      cop := (m.cop.backfill channels clock).1
      copByMode := m.copByMode.map fun c => (c.backfill channels clock).1
      compressor := m.compressor.backfill channels.frequency }

/-- The counters to keep across a restart. -/
def snapshot (m : Meter α) : EnergySnapshot α :=
  m.heat.snapshot

/-- What a sensor shows. -/
def report (c : CopSensor α) : CopReport α :=
  ⟨c.value?, c.quality⟩

/-- Both quantities to two places. -/
def rounded (p : ByKind α) : ByKind α :=
  ⟨Scalar.round2 p.heating, Scalar.round2 p.cooling⟩

/-- What the meter shows. -/
def summary (m : Meter α) : Summary α where
  cop := report m.cop
  copByMode := m.copByMode.map report
  power := rounded m.heat.power
  daily := rounded m.heat.daily
  total := rounded m.heat.total
  dayStart := m.heat.dayStart
  compressor := m.compressor.averages
  phase := m.watch.phase
  reliable := m.watch.reliable

end Meter

end HeatMeter
