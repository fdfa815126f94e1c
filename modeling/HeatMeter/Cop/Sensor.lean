/-
  HeatMeter.Cop.Sensor
  ────────────────────
  **A SENSOR OF THE COEFFICIENT OF PERFORMANCE.**

  A sensor takes at most one power sample per interval from the readings it is
  shown.  A sensor for one mode takes none from a reading in another mode, and
  none when the mode is unknown.  A sample is taken only while temperatures are
  reliable, the compressor runs, and both powers come out positive; for cooling
  the thermal power counts with its sign reversed.

  A sensor is filled in two ways.  `poll` shows it a live reading, and intervals
  are measured on the monotonic clock.  `backfill` shows it recorded channels,
  and intervals are measured between the recorded instants; the first live sample
  then keeps its distance from the newest recorded one.
-/
import HeatMeter.Channels
import HeatMeter.Clock
import HeatMeter.Cop.Window
import HeatMeter.Defrost
import HeatMeter.Power

namespace HeatMeter

/-- A coefficient of performance, of one mode or of all. -/
structure CopSensor (α : Type) where
  /-- The samples taken. -/
  window : Window α
  /-- Whether temperatures are reliable. -/
  watch : DefrostWatch
  /-- The one mode to learn from, none for every mode. -/
  mode : Option Mode
  /-- Monotonic time before which no sample is taken. -/
  nextSample : Option Duration
  /-- Settings of the meter. -/
  settings : Settings α
  /-- How powers are computed. -/
  rule : PowerRule α

namespace CopSensor

variable {α : Type} [Scalar α]

/-- A sensor that fills the given window. -/
def withWindow (window : Window α) (s : Settings α) (mode : Option Mode) : CopSensor α :=
  ⟨window, .fresh, mode, none, s, .physical⟩

/-- A sensor that has seen nothing. -/
def fresh (s : Settings α) (mode : Option Mode) : CopSensor α :=
  withWindow (.ofSettings s.cop) s mode

/-- The shortest time between two samples. -/
def minInterval (c : CopSensor α) : Duration :=
  c.settings.cop.minInterval

/-- Whether readings in this mode are learnt from. -/
def accepts (c : CopSensor α) (mode : Option Mode) : Bool :=
  match c.mode, mode with
  | none, _ => true
  | some expected, some actual => expected = actual
  | some _, none => false

/-- Thermal power of a reading as this sensor counts it. -/
def thermalPower (c : CopSensor α) (inlet outlet flow : α) : α :=
  let p := c.rule.thermal c.settings.water inlet outlet flow
  if c.mode = some .cooling then -p else p

/-- Electrical power of both compressors. -/
def electricalPower (c : CopSensor α) (r : Reading α) (current : α) : α :=
  let e := c.settings.electrical
  let voltage := r.voltage.or e.voltage
  let first := c.rule.electrical e ⟨current, r.power, voltage, e.threePhase⟩
  match r.secondRunning, r.secondCurrent with
  | true, some second => first + c.rule.electrical e ⟨second, none, voltage, e.threePhase⟩
  | _, _ => first

/-- Thermal and electrical power of a reading, when both are positive. -/
def powers? (c : CopSensor α) (r : Reading α) : Option (α × α) :=
  match r.inlet, r.outlet, r.flow, r.current with
  | some inlet, some outlet, some flow, some current =>
    let thermal := c.thermalPower inlet outlet flow
    let electrical := c.electricalPower r current
    if 0 < thermal ∧ 0 < electrical then some (thermal, electrical) else none
  | _, _, _, _ => none

/-- Whether the interval since the last sample is over. -/
def due (c : CopSensor α) (now : Duration) : Bool :=
  match c.nextSample with
  | some next => decide (next ≤ now)
  | none => true

/-- The powers to sample from a live reading, if it is to be sampled. -/
def liveSample? (c : CopSensor α) (r : Reading α) (now : Duration) : Option (α × α) :=
  if c.watch.reliable && c.accepts r.mode && r.running && c.due now then c.powers? r
  else none

/-- Show the sensor a live reading. -/
def poll (c : CopSensor α) (r : Reading α) (clock : Clock) : CopSensor α :=
  let c := { c with
    watch := c.watch.observe c.settings.defrost r.defrosting r.deltaT clock.elapsed }
  match c.liveSample? r clock.elapsed with
  | none => c
  | some (thermal, electrical) =>
    { c with
      window := c.window.add ⟨clock.now, thermal, electrical⟩
      nextSample := some (clock.elapsed.saturatingAdd c.minInterval) }

/-- Put samples into the window. -/
def preload (c : CopSensor α) (ms : List (Sample α)) : CopSensor α :=
  { c with window := c.window.load ms }

/-- The interval between recorded samples; none at all, where the configured one
is too long for a span. -/
def recordedInterval (c : CopSensor α) : Int :=
  c.minInterval.span?.getD 0

/-- The samples to take from records, given the instant of the last one
taken. -/
def recordedSamples (c : CopSensor α) :
    Option Instant → List (Record α) → List (Sample α)
  | _, [] => []
  | last, ⟨t, r⟩ :: rest =>
    let tooSoon := match last with
      | some l => decide (t.since l < c.recordedInterval)
      | none => false
    if r.defrosting || !c.accepts r.mode || !r.running || tooSoon then
      recordedSamples c last rest
    else
      match c.powers? r with
      | some (thermal, electrical) =>
        ⟨t, thermal, electrical⟩ :: recordedSamples c (some t) rest
      | none => recordedSamples c last rest

/-- Keep the next live sample an interval away from a recorded one. -/
def holdAfter (c : CopSensor α) (last : Instant) (clock : Clock) : CopSensor α :=
  let passed := (Duration.ofSpan? (clock.now.since last)).getD .zero
  let remaining := c.minInterval.saturatingSub passed
  if remaining = .zero then c
  else
    let next := clock.elapsed.saturatingAdd remaining
    { c with nextSample := some (match c.nextSample with
        | some current => current.max next
        | none => next) }

/-- Show the sensor recorded channels; the number of samples taken comes with it. -/
def backfill (c : CopSensor α) (channels : Channels α) (clock : Clock) :
    CopSensor α × Nat :=
  let taken := c.recordedSamples none channels.records
  let held := match taken.getLast? with
    | some m => c.holdAfter m.time clock
    | none => c
  (held.preload taken, taken.length)

/-- The coefficient of performance to two places, where it is believable. -/
def value? (c : CopSensor α) : Option α :=
  c.window.cop?.map Scalar.round2

/-- The quality of the coefficient. -/
def quality (c : CopSensor α) : Quality α :=
  c.window.quality

end CopSensor

end HeatMeter
