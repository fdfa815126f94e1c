/-
  HeatMeter.Compressor
  ────────────────────
  **HOW LONG A COMPRESSOR RUNS AND RESTS.**

  From on/off observations the log keeps the transitions and the durations they
  end: a RUN from on to off, a REST from off to on, a CYCLE from on to the next
  on.  The first observation begins the log, and an observation that repeats the
  state changes nothing.  Each list of durations keeps its newest entries only,
  and the transitions kept are enough to measure every run and rest kept, and
  every cycle but, while the compressor is off, the oldest one.
-/
import HeatMeter.Channels
import HeatMeter.Cop.Sample
import HeatMeter.Queue

namespace HeatMeter

/-- Mean durations in minutes, none for a kind that has not been seen. -/
structure CompressorTimes (α : Type) where
  /-- From on to the next on. -/
  cycle : Option α
  /-- From on to off. -/
  run : Option α
  /-- From off to on. -/
  rest : Option α
  deriving DecidableEq, Repr

/-- The on/off transitions of a compressor and the durations between them. -/
structure CompressorLog (α : Type) where
  /-- The newest transitions, the first observation included. -/
  transitions : Queue (Instant × Bool)
  /-- The newest cycles, minutes. -/
  cycles : Queue α
  /-- The newest runs, minutes. -/
  runs : Queue α
  /-- The newest rests, minutes. -/
  rests : Queue α
  /-- The last transition. -/
  last : Option (Instant × Bool)
  /-- When the compressor last went on. -/
  lastOn : Option Instant
  deriving DecidableEq, Repr

namespace CompressorLog

variable {α : Type} [Scalar α]

/-- A log of at most `maxHistory` durations of each kind. -/
def ofCapacity (maxHistory : Nat) : CompressorLog α where
  transitions := .bounded (2 * maxHistory + 1)
  cycles := .bounded maxHistory
  runs := .bounded maxHistory
  rests := .bounded maxHistory
  last := none
  lastOn := none

/-- Enter a transition. -/
def enter (l : CompressorLog α) (running : Bool) (t : Instant) : CompressorLog α :=
  { l with
    transitions := l.transitions.push (t, running)
    last := some (t, running)
    lastOn := if running then some t else l.lastOn }

/-- The log with the cycle that an on-transition at `t` ends, if there is one. -/
def endCycle (l : CompressorLog α) (t : Instant) : CompressorLog α :=
  match l.lastOn with
  | some on =>
    if 2 ≤ l.transitions.size then
      { l with cycles := l.cycles.push (minutesOfSpan (t.since on)) }
    else l
  | none => l

/-- Observe the compressor at an instant. -/
def observe (l : CompressorLog α) (running : Bool) (t : Instant) : CompressorLog α :=
  match l.last with
  | none => l.enter running t
  | some (since, state) =>
    if state = running then l
    else
      let minutes := minutesOfSpan (t.since since)
      let ended :=
        if running then { l.endCycle t with rests := l.rests.push minutes }
        else { l with runs := l.runs.push minutes }
      ended.enter running t

/-- Observe recorded states, in order of time. -/
def load (l : CompressorLog α) (states : Series Bool) : CompressorLog α :=
  states.inOrder.foldl (fun l (t, running) => l.observe running t) l

/-- Observe the states of a recorded frequency channel. -/
def backfill (l : CompressorLog α) (frequency : Series α) : CompressorLog α :=
  l.load (Channels.runningStates frequency)

/-- The mean durations. -/
def averages (l : CompressorLog α) : CompressorTimes α where
  cycle := Scalar.mean? l.cycles.toList
  run := Scalar.mean? l.runs.toList
  rest := Scalar.mean? l.rests.toList

end CompressorLog

end HeatMeter
