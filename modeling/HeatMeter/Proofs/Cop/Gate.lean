/-
  HeatMeter.Proofs.Cop.Gate
  ─────────────────────────
  **LIVE SAMPLES ARE AN INTERVAL APART ON THE MONOTONIC CLOCK.**

  A sensor remembers the monotonic time before which it takes no live sample.  Whatever
  happens to the sensor and its clock, that time is never put forward:

      a reading without a sample      it stays, and so does the window
      a reading with a sample         it had passed, and is now an interval ahead
      recorded channels               it stays or is put off, `holdAfter` takes the later
      a move of the clock             it stays, wherever the wall is set

  `ShutUntil.take` is one event and `ShutUntil.after` a run.  The sample after a sample
  therefore waits for the end of the interval, which may be the longest duration there is.
-/
import HeatMeter.Proofs.Meter.Run

namespace HeatMeter

variable {α : Type}

/-! ## §1. Windows that take a sample in. -/

namespace Window

/-- A sample that comes in stays: there is room for one, and none is kept for less than no
time. -/
structure TakesIn (w : Window α) : Prop where
  /-- There is room for a sample. -/
  room : w.samples.capacity ≠ some 0
  /-- The retention is not negative. -/
  retention : 0 ≤ w.settings.retention

theorem TakesIn.load {w : Window α} (h : w.TakesIn) (ms : List (Sample α)) :
    (w.load ms).TakesIn :=
  ⟨by rw [capacity_load]; exact h.room, by rw [settings_load]; exact h.retention⟩

/-- **A sample that is added is the last one of the window**, wherever the wall has been
set. -/
theorem TakesIn.back?_add {w : Window α} (h : w.TakesIn) (m : Sample α) :
    (w.add m).samples.back? = some m := by
  have hback : (w.samples.push m).back? = some m := Queue.back?_push h.room m
  unfold add evict
  dsimp only
  rw [hback]
  dsimp only
  cases hcut : m.time.sub? w.settings.retention with
  | none => exact hback
  | some cutoff =>
    -- the sample is not before the cutoff that is counted back from it
    have hle : cutoff ≤ m.time := Instant.le_of_sub? h.retention hcut
    exact getLast?_dropWhile hback (decide_eq_false (not_lt.2 hle))

end Window

namespace CopSensor

/-! ## §2. A sensor and its clock. -/

/-- The sensor has a time before which it takes no sample, and it is `d` or later. -/
def ShutUntil (c : CopSensor α) (d : Duration) : Prop :=
  ∃ next ∈ c.nextSample, d ≤ next

theorem ShutUntil.le_of_due {c : CopSensor α} {d now : Duration} (h : c.ShutUntil d)
    (hdue : c.due now = true) : d ≤ now := by
  obtain ⟨next, hnext, hle⟩ := h
  rw [Option.mem_def] at hnext
  rw [due, hnext, decide_eq_true_eq] at hdue
  exact Duration.le_trans hle hdue

/-- A recorded sample puts the time off, or leaves it. -/
theorem ShutUntil.holdAfter {c : CopSensor α} {d : Duration} (h : c.ShutUntil d) (last : Instant)
    (clock : Clock) : (c.holdAfter last clock).ShutUntil d := by
  obtain ⟨next, hnext, hle⟩ := h
  rw [CopSensor.holdAfter]
  extract_lets
  split
  · exact ⟨next, hnext, hle⟩
  · rw [Option.mem_def] at hnext
    rw [hnext]
    exact ⟨_, rfl, Duration.le_trans hle (next.le_max_left _)⟩

/-- The time does not depend on the window. -/
theorem ShutUntil.preload {c : CopSensor α} {d : Duration} (h : c.ShutUntil d)
    (ms : List (Sample α)) : (c.preload ms).ShutUntil d := by
  obtain ⟨next, hnext, hle⟩ := h
  exact ⟨next, hnext, hle⟩

variable [Scalar α]

/-- The sensor and its clock after one event. -/
def take (p : CopSensor α × Clock) : MeterEvent α → CopSensor α × Clock
  | .poll r => (p.1.poll r p.2, p.2)
  | .backfill channels => ((p.1.backfill channels p.2).1, p.2)
  | .set target => (p.1, (p.2.set target).1)
  | .advance step => (p.1, (p.2.advance step).1)

/-- The sensor and its clock after events. -/
def after (p : CopSensor α × Clock) (events : List (MeterEvent α)) : CopSensor α × Clock :=
  events.foldl take p

/-! ## §3. One event, and a run. -/

theorem nextSample_poll_of_some {c : CopSensor α} {r : Reading α} {clock : Clock} {m : Sample α}
    (h : c.taken? r clock = some m) :
    (c.poll r clock).nextSample = some (clock.elapsed.saturatingAdd c.minInterval) :=
  congrArg nextSample (poll_of_some h)

section

variable {p : CopSensor α × Clock} {d : Duration}

/-- **No event puts the time forward.** -/
theorem ShutUntil.take (h : p.1.ShutUntil d) (e : MeterEvent α) :
    (take p e).1.ShutUntil d := by
  cases e with
  | poll r =>
    show (p.1.poll r p.2).ShutUntil d
    cases htaken : p.1.taken? r p.2 with
    | none =>
      rw [poll_of_none htaken]
      exact h
    | some m =>
      -- the time has passed, and the next one is not before now
      have hpassed : d ≤ p.2.elapsed := h.le_of_due (of_taken? htaken).2.1
      exact ⟨_, nextSample_poll_of_some htaken,
        Duration.le_trans hpassed (Duration.le_saturatingAdd _ _)⟩
  | backfill channels =>
    show (p.1.backfill channels p.2).1.ShutUntil d
    unfold backfill
    dsimp only
    apply ShutUntil.preload
    cases (p.1.recordedSamples none channels.records).getLast? with
    | none => exact h
    | some m => exact h.holdAfter m.time p.2
  | set target => exact h
  | advance step => exact h

theorem ShutUntil.after (h : p.1.ShutUntil d) (events : List (MeterEvent α)) :
    (after p events).1.ShutUntil d := by
  induction events generalizing p with
  | nil => exact h
  | cons e rest ih => exact ih (h.take e)

end

/-- The sensor has these settings and a window that takes samples in. -/
structure Ready (s : Settings α) (c : CopSensor α) : Prop where
  /-- The settings are the configured ones. -/
  settings : c.settings = s
  /-- A sample that is taken stays in the window. -/
  window : c.window.TakesIn

section

variable {s : Settings α} {p : CopSensor α × Clock}

theorem Ready.take (h : Ready s p.1) (e : MeterEvent α) : Ready s (take p e).1 := by
  cases e with
  | poll r =>
    refine ⟨(settings_poll p.1 r p.2).trans h.settings, ?_⟩
    show (p.1.poll r p.2).window.TakesIn
    cases htaken : p.1.taken? r p.2 with
    | none =>
      rw [poll_of_none htaken]
      exact h.window
    | some m =>
      rw [poll_of_some htaken]
      show (p.1.window.add m).TakesIn
      rw [Window.add_eq_load]
      exact h.window.load [m]
  | backfill channels =>
    refine ⟨(p.1.backfill_keeps channels p.2).1.trans h.settings, ?_⟩
    show (p.1.backfill channels p.2).1.window.TakesIn
    rw [window_backfill]
    exact h.window.load _
  | set target => exact h
  | advance step => exact h

theorem Ready.after (h : Ready s p.1) (events : List (MeterEvent α)) :
    Ready s (after p events).1 := by
  induction events generalizing p with
  | nil => exact h
  | cons e rest ih => exact ih (h.take e)

end

/-! ## §4. The gate. -/

/-- A sensor as it is made: with an empty window of its settings or with one of its own,
and with any rule for powers. -/
inductive MadeFrom (s : Settings α) : CopSensor α → Prop where
  /-- The window is empty and as large as the settings allow. -/
  | fresh (mode : Option Mode) : MadeFrom s (fresh s mode)
  /-- The window is given. -/
  | withWindow {w : Window α} (h : w.TakesIn) (mode : Option Mode) :
    MadeFrom s (withWindow w s mode)
  /-- The rule is given. -/
  | withRule {c : CopSensor α} (h : MadeFrom s c) (rule : PowerRule α) :
    MadeFrom s { c with rule := rule }

theorem MadeFrom.ready {s : Settings α} (hs : s.fault? = none) {c : CopSensor α}
    (h : MadeFrom s c) : Ready s c := by
  induction h with
  | fresh mode =>
    have hroom := (Settings.cop_bounds hs).2.2
    refine ⟨rfl, ?_, Int.le_of_lt (Settings.retention_pos hs)⟩
    show some s.cop.maxMeasurements ≠ some 0
    rw [ne_eq, Option.some.injEq]
    omega
  | withWindow h mode => exact ⟨rfl, h⟩
  | withRule _ rule ih => exact ⟨ih.settings, ih.window⟩

/-- What the gate of a sensor promises of the reading that comes next and of all that
happens later. -/
structure GateLaw (s : Settings α) (p : CopSensor α × Clock) : Prop where
  /-- A reading without a sample leaves the window and the time of the next sample. -/
  rejected : ∀ r, p.1.taken? r p.2 = none →
    (p.1.poll r p.2).window = p.1.window ∧ (p.1.poll r p.2).nextSample = p.1.nextSample
  /-- A sample that is taken has the time of the wall and is the last one of the window. -/
  stored : ∀ r m, p.1.taken? r p.2 = some m →
    m.time = p.2.now ∧ (p.1.poll r p.2).window.samples.back? = some m
  /-- The time of the next sample is never put forward. -/
  shut : ∀ next ∈ p.1.nextSample, ∀ more, (after p more).1.ShutUntil next
  /-- A sample and a later one are an interval apart on the monotonic clock. -/
  spaced : ∀ r m, p.1.taken? r p.2 = some m → ∀ more r' m',
    (after p (.poll r :: more)).1.taken? r' (after p (.poll r :: more)).2 = some m' →
    min (p.2.elapsed.nanos + s.cop.minInterval.nanos) Duration.longestNanos
      ≤ (after p (.poll r :: more)).2.elapsed.nanos

/-- **Live samples are an interval apart on the monotonic clock**, whatever happens to the
sensor and its clock in between, and a reading without a sample uses nothing up. -/
theorem gateLaw_after {s : Settings α} (hs : s.fault? = none) {c : CopSensor α}
    (hc : MadeFrom s c) (clock : Clock) (events : List (MeterEvent α)) :
    GateLaw s (after (c, clock) events) := by
  have hready : Ready s (after (c, clock) events).1 := Ready.after (hc.ready hs) events
  generalize after (c, clock) events = p at hready
  refine ⟨?_, ?_, ?_, ?_⟩
  · intro r hnone
    rw [poll_of_none hnone]
    exact ⟨rfl, rfl⟩
  · intro r m htaken
    refine ⟨(of_taken? htaken).1, ?_⟩
    rw [poll_of_some htaken]
    exact hready.window.back?_add m
  · intro next hnext more
    exact ShutUntil.after ⟨next, hnext, Duration.le_refl _⟩ more
  · intro r m htaken more r' m' hlater
    -- from the sample on the gate is shut for an interval, and the later one finds it open
    have hshut : (take p (.poll r)).1.ShutUntil (p.2.elapsed.saturatingAdd p.1.minInterval) :=
      ⟨_, nextSample_poll_of_some htaken, Duration.le_refl _⟩
    have hdue := (of_taken? hlater).2.1
    have hle := (hshut.after more).le_of_due hdue
    rw [Duration.le_def, Duration.nanos_saturatingAdd, minInterval, hready.settings] at hle
    exact hle

/-- The wall is set back an hour, a reading without a flow is shown, and a minute
passes. -/
def interruption : List (MeterEvent Float) :=
  [.set (.ofFirstDay 0), .poll { steadyReading 50 with flow := none },
    .advance (.ofSeconds 60)]

/-- A sample is taken an hour into the first day and, after that, at the end of its first
minute. -/
theorem gateLaw_of_interruption :
    ((fresh .standard none).taken? (steadyReading 50)
        (.startingAt (.ofFirstDay 3600))).isSome
      ∧ 60000000000 ≤ (after (fresh .standard none, .startingAt (.ofFirstDay 3600))
          (.poll (steadyReading 50) :: interruption)).2.elapsed.nanos
      ∧ (after (fresh .standard none, .startingAt (.ofFirstDay 3600))
          (.poll (steadyReading 50) :: interruption)).2.now = .ofFirstDay 60 := by
  have hfirst : ((fresh .standard none).taken? (steadyReading 50)
      (.startingAt (.ofFirstDay 3600))).isSome := by decide +kernel
  have hsecond : ((after (fresh .standard none, .startingAt (.ofFirstDay 3600))
      (.poll (steadyReading 50) :: interruption)).1.taken? (steadyReading 50)
        (after (fresh .standard none, .startingAt (.ofFirstDay 3600))
          (.poll (steadyReading 50) :: interruption)).2).isSome := by decide +kernel
  obtain ⟨m, hm⟩ := Option.isSome_iff_exists.1 hfirst
  obtain ⟨m', hm'⟩ := Option.isSome_iff_exists.1 hsecond
  have hfault : (.standard : Settings Float).fault? = none := by decide
  have hlaw := gateLaw_after hfault (.fresh none) (.startingAt (.ofFirstDay 3600)) []
  exact ⟨hfirst, hlaw.spaced _ m hm interruption _ m' hm', by decide +kernel⟩

end CopSensor

end HeatMeter
