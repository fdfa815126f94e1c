/-
  HeatMeter.Channels
  ──────────────────
  **RECORDED CHANNELS AND THE READINGS THEY AMOUNT TO.**

  A channel is a series of values with the instants at which they were recorded,
  in any order.  The channels of a unit are merged by sample and hold: at every
  instant at which any channel has a value, each channel shows its latest value
  up to then.  Of two values of one channel at one instant the one given later
  counts.
-/
import HeatMeter.Record

namespace HeatMeter

/-- Values with the instants at which they were recorded. -/
abbrev Series (β : Type) := List (Instant × β)

namespace Series

variable {β : Type}

/-- A series in order of time; values of one instant keep their order. -/
def inOrder (s : Series β) : Series β :=
  s.mergeSort fun a b => decide (a.1 ≤ b.1)

/-- The value a series in order shows at an instant. -/
def held? (s : Series β) (t : Instant) : Option β :=
  (s.takeWhile fun x => decide (x.1 ≤ t)).getLast?.map (·.2)

/-- The instants of a series. -/
def instants (s : Series β) : List Instant :=
  s.map (·.1)

end Series

/-- A list without the elements that repeat the one before them. -/
def dropRepeats {β : Type} [DecidableEq β] : List β → List β
  | a :: b :: rest => if a = b then dropRepeats (b :: rest) else a :: dropRepeats (b :: rest)
  | short => short

/-- Instants in strictly increasing order, each once. -/
def distinctInstants (ts : List Instant) : List Instant :=
  dropRepeats (ts.mergeSort fun a b => decide (a ≤ b))

/-- The recorded channels of a unit. -/
structure Channels (α : Type) where
  /-- Water temperature at the inlet. -/
  inlet : Series α := []
  /-- Water temperature at the outlet. -/
  outlet : Series α := []
  /-- Water flow. -/
  flow : Series α := []
  /-- Current of the compressor. -/
  current : Series α := []
  /-- Frequency of the compressor. -/
  frequency : Series α := []
  /-- Measured power of the compressor. -/
  power : Series α := []
  /-- Current of the second compressor. -/
  secondCurrent : Series α := []
  /-- Frequency of the second compressor. -/
  secondFrequency : Series α := []
  /-- Defrost reports. -/
  defrost : Series Bool := []
  /-- Modes. -/
  mode : Series Mode := []
  deriving DecidableEq, Repr

namespace Channels

variable {α : Type}

/-- Every instant at which some channel has a value, in order, each once. -/
def instants (c : Channels α) : List Instant :=
  distinctInstants <|
    c.inlet.instants ++ c.outlet.instants ++ c.flow.instants ++ c.current.instants
      ++ c.frequency.instants ++ c.power.instants ++ c.secondCurrent.instants
      ++ c.secondFrequency.instants ++ c.defrost.instants ++ c.mode.instants

/-- Whether no channel has a value. -/
def isEmpty (c : Channels α) : Bool :=
  c.instants.isEmpty

/-- The channels with each series in order. -/
def inOrder (c : Channels α) : Channels α where
  inlet := c.inlet.inOrder
  outlet := c.outlet.inOrder
  flow := c.flow.inOrder
  current := c.current.inOrder
  frequency := c.frequency.inOrder
  power := c.power.inOrder
  secondCurrent := c.secondCurrent.inOrder
  secondFrequency := c.secondFrequency.inOrder
  defrost := c.defrost.inOrder
  mode := c.mode.inOrder

/-- What channels in order show at an instant; the supply voltage is not
recorded. -/
def readingAt (c : Channels α) (t : Instant) : Reading α where
  inlet := c.inlet.held? t
  outlet := c.outlet.held? t
  flow := c.flow.held? t
  current := c.current.held? t
  frequency := c.frequency.held? t
  power := c.power.held? t
  voltage := none
  secondCurrent := c.secondCurrent.held? t
  secondFrequency := c.secondFrequency.held? t
  defrost := c.defrost.held? t
  mode := c.mode.held? t

/-- The records the channels amount to, in order of time. -/
def records (c : Channels α) : List (Record α) :=
  let sorted := c.inOrder
  c.instants.map fun t => ⟨t, sorted.readingAt t⟩

/-- Whether the compressor ran, at every instant of its frequency channel. -/
def runningStates [Scalar α] (frequency : Series α) : Series Bool :=
  frequency.inOrder.map fun (t, f) => (t, isRunning (some f))

end Channels

end HeatMeter
