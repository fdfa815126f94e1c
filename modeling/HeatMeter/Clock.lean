/-
  HeatMeter.Clock
  ───────────────
  **A CLOCK THAT MOVES ONLY WHEN TOLD TO.**

  A clock shows two times: the wall time, which may be set backwards, and a
  monotonic reading, which never falls.  A recording is metered under such a
  clock, set to each record's own time.

      set      the wall jumps; the monotonic reading follows a forward jump
               and holds still on a backward one
      advance  both move by a duration; one too long to be a span moves the
               monotonic reading only

  A sum beyond the range of a reading OVERFLOWS: the move stops there, and what
  was moved before stays moved.
-/
import HeatMeter.Time.Instant

namespace HeatMeter

/-- A wall time and a monotonic reading. -/
structure Clock where
  /-- Wall time, for days and timestamps. -/
  now : Instant
  /-- Time elapsed since the clock was made, for intervals. -/
  elapsed : Duration
  deriving DecidableEq, Repr

/-- How a move of the clock ended. -/
inductive ClockMove where
  /-- Both readings are where they belong. -/
  | moved
  /-- A sum was out of range and the rest of the move was not made. -/
  | overflow
  deriving DecidableEq, Repr

namespace Clock

/-- A clock that shows `start` and has not run yet. -/
def startingAt (start : Instant) : Clock :=
  ⟨start, .zero⟩

/-- Jump the wall time to `target`. -/
def set (c : Clock) (target : Instant) : Clock × ClockMove :=
  match Duration.ofSpan? (target.since c.now) with
  | none => ({ c with now := target }, .moved)
  | some forward =>
    match c.elapsed.add? forward with
    | none => (c, .overflow)
    | some elapsed => (⟨target, elapsed⟩, .moved)

/-- Let a duration pass. -/
def advance (c : Clock) (step : Duration) : Clock × ClockMove :=
  match c.elapsed.add? step with
  | none => (c, .overflow)
  | some elapsed =>
    match step.span? with
    | none => ({ c with elapsed := elapsed }, .moved)
    | some span =>
      match c.now.add? span with
      | none => ({ c with elapsed := elapsed }, .overflow)
      | some now => (⟨now, elapsed⟩, .moved)

end Clock

end HeatMeter
