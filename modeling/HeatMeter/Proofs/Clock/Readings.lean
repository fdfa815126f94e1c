/-
  HeatMeter.Proofs.Clock.Readings
  ───────────────────────────────
  **THE WALL NEVER GETS AHEAD OF THE MONOTONIC READING.**

  A clock is set to any instant and runs for any time, and a move that overflows stops
  where it is.  The two readings are moved one after the other:

      move                        monotonic reading    wall
      set forward                 + the span           the target
      set back                    stays                the target
      set, sum out of range       stays                stays
      run                         + the time           + the time
      run, too long for a span    + the time           stays
      run, wall out of range      + the time           stays
      run, sum out of range       stays                stays

  So the monotonic reading never falls, and outside leap seconds the wall is never
  further from its start than the reading: `NotAhead.call` is one move, `NotAhead.after` a
  run.  Where all moves are forward and end well the two are equal, by `InStep.call`.
-/
import HeatMeter.Proofs.Clock.Forward

namespace HeatMeter

/-! ## §1. Moves of a clock. -/

/-- What a clock may be told. -/
inductive ClockCall where
  /-- To show an instant. -/
  | set (target : Instant)
  /-- To run for a time. -/
  | advance (step : Duration)
  deriving DecidableEq, Repr

namespace ClockCall

/-- The clock is told of no leap second. -/
def Ordinary : ClockCall → Prop
  | .set target => target.isLeap = false
  | .advance _ => True

/-- The clock is told to move forward from `now`, by a time that is a span. -/
def Forward (now : Instant) : ClockCall → Prop
  | .set target => now ≤ target
  | .advance step => (step.nanos : Int) ≤ maxSpan

instance (now : Instant) (x : ClockCall) : Decidable (x.Forward now) :=
  match x with
  | .set target => inferInstanceAs (Decidable (now ≤ target))
  | .advance step => inferInstanceAs (Decidable ((step.nanos : Int) ≤ maxSpan))

end ClockCall

namespace Duration

theorem nanos_of_add? {a b d : Duration} (h : a.add? b = some d) :
    d.nanos = a.nanos + b.nanos := by
  unfold add? ofNanos? at h
  split at h
  next => rw [← Option.some.inj h]
  next => cases h

end Duration

namespace Clock

/-- The clock after it was told, and how that ended. -/
def call (c : Clock) : ClockCall → Clock × ClockMove
  | .set target => c.set target
  | .advance step => c.advance step

/-- The clock after it was told several things; a move that overflows stops where it is. -/
def after (c : Clock) (calls : List ClockCall) : Clock :=
  calls.foldl (fun c x => (c.call x).1) c

/-- Every move is forward and ends well. -/
def RunsForward : Clock → List ClockCall → Prop
  | _, [] => True
  | c, x :: rest => (x.Forward c.now ∧ (c.call x).2 = .moved) ∧ RunsForward (c.call x).1 rest

theorem after_append (c : Clock) (calls more : List ClockCall) :
    c.after (calls ++ more) = (c.after calls).after more :=
  List.foldl_append

/-! ## §2. All that a move does. -/

section

variable (c : Clock)

/-- **All that setting a clock does.** -/
theorem set_cases (target : Instant) :
    c.set target = (c, .overflow)
      ∨ ∃ elapsed, c.set target = (⟨target, elapsed⟩, .moved)
        ∧ (elapsed.nanos : Int) = c.elapsed.nanos + max 0 (target.since c.now) := by
  by_cases hroom : (c.elapsed.nanos : Int) + target.since c.now ≤ Duration.longestNanos
  · exact .inr (c.set_eq target hroom)
  · -- a span that leaves no room is not negative, and none is longer than a duration
    have hle : c.elapsed.nanos ≤ Duration.longestNanos := c.elapsed.le_longest
    have hlong : (Duration.longestNanos : Int) = 18446744073709551615999999999 := rfl
    have hshort := Instant.since_le c.now target
    obtain ⟨forward, hforward, hnanos⟩ :=
      Duration.ofSpan?_eq_some (target.since c.now) (by omega) (by omega)
    have hnone : c.elapsed.add? forward = none := by
      have hover : ¬ c.elapsed.nanos + forward.nanos ≤ Duration.longestNanos := by omega
      unfold Duration.add? Duration.ofNanos?
      rw [dif_neg hover]
    left
    unfold set
    rw [hforward]
    dsimp only
    rw [hnone]

/-- **All that letting a clock run does**: nothing if the monotonic reading has no room, and
otherwise the reading moves, and the wall as well if the time is a span that it can show. -/
theorem advance_cases (step : Duration) :
    c.advance step = (c, .overflow)
      ∨ ∃ elapsed, elapsed.nanos = c.elapsed.nanos + step.nanos
        ∧ ((maxSpan < step.nanos ∧ c.advance step = (⟨c.now, elapsed⟩, .moved))
          ∨ c.advance step = (⟨c.now, elapsed⟩, .overflow)
          ∨ ∃ later, c.now.add? step.nanos = some later
            ∧ c.advance step = (⟨later, elapsed⟩, .moved)) := by
  unfold advance
  cases hadd : c.elapsed.add? step with
  | none => exact .inl rfl
  | some elapsed =>
    refine .inr ⟨elapsed, Duration.nanos_of_add? hadd, ?_⟩
    unfold Duration.span?
    by_cases hspan : (step.nanos : Int) ≤ maxSpan
    · rw [if_pos hspan]
      dsimp only
      cases hlater : c.now.add? step.nanos with
      | none => exact .inr (.inl rfl)
      | some later => exact .inr (.inr ⟨later, rfl, rfl⟩)
    · rw [if_neg hspan]
      exact .inl ⟨Int.not_le.1 hspan, rfl⟩

/-- **No move takes the monotonic reading back.** -/
theorem elapsed_le_call (x : ClockCall) : c.elapsed ≤ (c.call x).1.elapsed := by
  rw [Duration.le_def]
  cases x with
  | set target =>
    show c.elapsed.nanos ≤ (c.set target).1.elapsed.nanos
    rcases c.set_cases target with hstop | ⟨elapsed, hset, hnanos⟩
    · exact Nat.le_of_eq (by rw [hstop])
    · rw [hset]
      show c.elapsed.nanos ≤ elapsed.nanos
      omega
  | advance step =>
    show c.elapsed.nanos ≤ (c.advance step).1.elapsed.nanos
    rcases c.advance_cases step with hstop | ⟨elapsed, hnanos, ⟨-, hlong⟩ | hstop | ⟨later, -, hrun⟩⟩
    · exact Nat.le_of_eq (by rw [hstop])
    · rw [hlong]
      show c.elapsed.nanos ≤ elapsed.nanos
      omega
    · rw [hstop]
      show c.elapsed.nanos ≤ elapsed.nanos
      omega
    · rw [hrun]
      show c.elapsed.nanos ≤ elapsed.nanos
      omega

theorem elapsed_le_after (calls : List ClockCall) : c.elapsed ≤ (c.after calls).elapsed := by
  induction calls generalizing c with
  | nil => exact c.elapsed.le_refl
  | cons x rest ih => exact Duration.le_trans (c.elapsed_le_call x) (ih (c.call x).1)

end

/-! ## §3. The two readings. -/

/-- The wall shows no leap second and is not further from `start` than the monotonic reading
counts. -/
structure NotAhead (start : Instant) (c : Clock) : Prop where
  /-- The wall shows no leap second. -/
  ordinary : c.now.isLeap = false
  /-- The time since the start is at most the monotonic reading. -/
  elapsed : c.now.linear - start.linear ≤ c.elapsed.nanos

theorem InStep.notAhead {start : Instant} {c : Clock} (h : c.InStep start) :
    c.NotAhead start :=
  ⟨h.ordinary, Int.le_of_eq h.elapsed.symm⟩

section

variable {start : Instant} {c : Clock} {x : ClockCall}

/-- **No move takes the wall ahead of the monotonic reading.** -/
theorem NotAhead.call (h : c.NotAhead start) (hx : x.Ordinary) : (c.call x).1.NotAhead start := by
  have helapsed := h.elapsed
  cases x with
  | set target =>
    show (c.set target).1.NotAhead start
    have hspan : target.since c.now = target.linear - c.now.linear :=
      Instant.since_eq hx h.ordinary
    rcases c.set_cases target with hstop | ⟨elapsed, hset, hnanos⟩
    · rw [hstop]
      exact h
    · rw [hset]
      exact ⟨hx, by dsimp only; omega⟩
  | advance step =>
    show (c.advance step).1.NotAhead start
    rcases c.advance_cases step with
      hstop | ⟨elapsed, hnanos, ⟨-, hlong⟩ | hstop | ⟨later, hlater, hrun⟩⟩
    · rw [hstop]
      exact h
    · rw [hlong]
      exact ⟨h.ordinary, by dsimp only; omega⟩
    · rw [hstop]
      exact ⟨h.ordinary, by dsimp only; omega⟩
    · obtain ⟨hordinary, hlinear⟩ := Instant.add?_eq_some h.ordinary hlater
      rw [hrun]
      exact ⟨hordinary, by dsimp only; omega⟩

theorem NotAhead.after (h : c.NotAhead start) {calls : List ClockCall}
    (hcalls : ∀ x ∈ calls, x.Ordinary) : (c.after calls).NotAhead start := by
  induction calls generalizing c with
  | nil => exact h
  | cons x rest ih =>
    rw [List.forall_mem_cons] at hcalls
    exact ih (h.call hcalls.1) hcalls.2

/-- **A move forward that ends well keeps the two readings equal.** -/
theorem InStep.call (h : c.InStep start) (hx : x.Ordinary) (hforward : x.Forward c.now)
    (hmoved : (c.call x).2 = .moved) : (c.call x).1.InStep start := by
  cases x with
  | set target => exact (h.set hx hforward).2
  | advance step =>
    have helapsed := h.elapsed
    have hshort : (step.nanos : Int) ≤ maxSpan := hforward
    have hmoved : (c.advance step).2 = .moved := hmoved
    show (c.advance step).1.InStep start
    rcases c.advance_cases step with
      hstop | ⟨elapsed, hnanos, ⟨hlong, -⟩ | hstop | ⟨later, hlater, hrun⟩⟩
    · rw [hstop] at hmoved
      cases hmoved
    · exact absurd hshort (Int.not_le.2 hlong)
    · rw [hstop] at hmoved
      cases hmoved
    · obtain ⟨hordinary, hlinear⟩ := Instant.add?_eq_some h.ordinary hlater
      rw [hrun]
      exact ⟨hordinary, by dsimp only; omega⟩

theorem InStep.after (h : c.InStep start) {calls : List ClockCall}
    (hcalls : ∀ x ∈ calls, x.Ordinary) (hforward : c.RunsForward calls) :
    (c.after calls).InStep start := by
  induction calls generalizing c with
  | nil => exact h
  | cons x rest ih =>
    rw [List.forall_mem_cons] at hcalls
    obtain ⟨⟨hx, hmoved⟩, hrest⟩ := hforward
    exact ih (h.call hcalls.1 hx hmoved) hcalls.2 hrest

end

/-- **The two readings of a clock are consistent**, whatever it was told and wherever that
stopped.  The monotonic reading never falls.  Without leap seconds the wall is at most as
far from its start as the reading counts, and exactly as far if every move was forward, by
a span, and ended well. -/
theorem readings_consistent (start : Instant) (calls : List ClockCall) :
    (∀ more, ((startingAt start).after calls).elapsed
        ≤ ((startingAt start).after (calls ++ more)).elapsed)
      ∧ (start.isLeap = false → (∀ x ∈ calls, x.Ordinary) →
        ((startingAt start).after calls).now.since start
            ≤ ((startingAt start).after calls).elapsed.nanos
          ∧ ((startingAt start).RunsForward calls →
            ((startingAt start).after calls).now.since start
              = ((startingAt start).after calls).elapsed.nanos)) := by
  constructor
  · intro more
    rw [after_append]
    exact elapsed_le_after _ more
  · intro hstart hcalls
    have hbegin := startingAt_inStep hstart
    have hnever := hbegin.notAhead.after hcalls
    have hspan := Instant.since_eq hnever.ordinary hstart
    rw [hspan]
    refine ⟨hnever.elapsed, ?_⟩
    intro hforward
    exact (hbegin.after hcalls hforward).elapsed.symm

/-- A clock that is set a minute on and runs for half a minute; told to run for the longest
duration after that it stops there. -/
theorem readings_consistent_of_overflow :
    ((startingAt (.ofFirstDay 0)).RunsForward
        [.set (.ofFirstDay 60), .advance (.ofSeconds 30)]
      ∧ ((startingAt (.ofFirstDay 0)).after
          [.set (.ofFirstDay 60), .advance (.ofSeconds 30)]).now.since (.ofFirstDay 0)
        = ((startingAt (.ofFirstDay 0)).after
          [.set (.ofFirstDay 60), .advance (.ofSeconds 30)]).elapsed.nanos)
      ∧ ((((startingAt (.ofFirstDay 0)).after
          [.set (.ofFirstDay 60), .advance (.ofSeconds 30)]).call (.advance .longest)).2 = .overflow
        ∧ ((startingAt (.ofFirstDay 0)).after [.set (.ofFirstDay 60), .advance (.ofSeconds 30),
          .advance .longest]).now.since (.ofFirstDay 0)
          ≤ ((startingAt (.ofFirstDay 0)).after [.set (.ofFirstDay 60), .advance (.ofSeconds 30),
            .advance .longest]).elapsed.nanos) := by
  have hforward : (startingAt (.ofFirstDay 0)).RunsForward
      [.set (.ofFirstDay 60), .advance (.ofSeconds 30)] :=
    ⟨⟨by decide, by decide⟩, ⟨by decide, by decide⟩, trivial⟩
  obtain ⟨-, hequal⟩ := readings_consistent (.ofFirstDay 0)
    [.set (.ofFirstDay 60), .advance (.ofSeconds 30)]
  obtain ⟨-, hle⟩ := readings_consistent (.ofFirstDay 0)
    [.set (.ofFirstDay 60), .advance (.ofSeconds 30), .advance .longest]
  refine ⟨⟨hforward, (hequal rfl ?_).2 hforward⟩, by decide, (hle rfl ?_).1⟩
  · simp [ClockCall.Ordinary, Instant.ofFirstDay, Instant.isLeap]
  · simp [ClockCall.Ordinary, Instant.ofFirstDay, Instant.isLeap]

end Clock

end HeatMeter
