/-
  HeatMeter.Proofs.Cop.Sensor
  ───────────────────────────
  **WHAT A SENSOR HAS TAKEN FROM THE LIVE READINGS IT WAS SHOWN.**

  One reading gives at most one sample, `taken?`.  A sensor whose gate is shut for an
  interval after every sample has COLLECTED a list `ms` of samples:

      window      the window holds `ms`
      spaced      two samples in a row are an interval apart

  One that is shown records in order of time, its clock set to each of them, has
  moreover

      nextSample  the reading of the clock an interval after the last of `ms`

  `Sampled` is this invariant; `Sampled.poll` is one reading and
  `Sampled.follow` a whole run.
-/
import HeatMeter.Cop.Sensor
import HeatMeter.Proofs.Clock
import HeatMeter.Proofs.Cop.Window
import HeatMeter.Proofs.Record
import Mathlib.Data.List.Chain

namespace HeatMeter.CopSensor

variable {α : Type}

/-! ## §1. The samples taken, an interval apart. -/

/-- The sensor holds what it has kept of the samples `ms`, the last of them taken by the
time of `clock`. -/
structure Collected (c : CopSensor α) (clock : Clock) (ms : List (Sample α)) : Prop where
  /-- The window is judged by the sensor's settings. -/
  judged : c.window.settings = c.settings.cop
  /-- The window holds the samples taken. -/
  window : c.window.Holds ms
  /-- The samples are in order of time. -/
  chronological : Chronological ms
  /-- No sample is still to come. -/
  past : ∀ m ∈ ms, m.time ≤ clock.now
  /-- Two samples in a row are an interval apart. -/
  spaced : ms.IsChain fun a b => a.time.linear + (c.minInterval.nanos : Int) ≤ b.time.linear

section

variable {c : CopSensor α} {clock clock' : Clock} {ms : List (Sample α)}

/-- The clock may move forward. -/
theorem Collected.move (h : Collected c clock ms) (hle : clock.now ≤ clock'.now) :
    Collected c clock' ms :=
  { h with past := fun m hm => le_trans (h.past m hm) hle }

theorem Collected.isSuffix (h : Collected c clock ms) : c.window.samples.toList <:+ ms := by
  rw [h.window.toList]
  exact (retained_suffix _ _).trans (rtake_suffix _ _)

/-- The samples in the window are outside leap seconds and in order. -/
theorem Collected.ordered (h : Collected c clock ms) :
    Chronological c.window.samples.toList :=
  h.chronological.of_isSuffix h.isSuffix

/-- Samples an interval apart on the monotonic clock are as many seconds apart; an
interval too long for a duration is longer than the calendar. -/
theorem since_of_spaced {a b : Sample α} (ha : a.time.isLeap = false)
    (hb : b.time.isLeap = false)
    (h : a.time.linear + (c.minInterval.nanos : Int) ≤ b.time.linear) :
    (c.settings.cop.minIntervalSeconds : Int) * 1000000000 ≤ b.time.since a.time := by
  have hfirst := Instant.firstLinear_le a.time
  have hlast := Instant.linear_lt hb
  have hinterval : c.minInterval.nanos
      = min (c.settings.cop.minIntervalSeconds * 1000000000) Duration.longestNanos := rfl
  rw [Instant.since_eq hb ha]
  -- a capped interval would reach past the last instant
  unfold Instant.firstLinear at hfirst
  unfold Duration.longestNanos at hinterval
  omega

/-- Two samples in a row in the window are as many seconds apart as configured. -/
theorem Collected.spacedBySeconds (h : Collected c clock ms) :
    c.window.samples.toList.IsChain fun a b =>
      (c.settings.cop.minIntervalSeconds : Int) * 1000000000 ≤ b.time.since a.time := by
  apply (h.spaced.suffix h.isSuffix).imp_of_mem_imp
  intro a b ha hb hab
  exact since_of_spaced (h.ordered.ordinary a ha) (h.ordered.ordinary b hb) hab

end

variable [Scalar α]

/-! ## §2. One live reading. -/

/-- The sensor after its watch has seen a reading. -/
def watched (c : CopSensor α) (r : Reading α) (clock : Clock) : CopSensor α :=
  { c with watch := c.watch.observe c.settings.defrost r.defrosting r.deltaT clock.elapsed }

/-- The sample taken from a live reading, if one is taken. -/
def taken? (c : CopSensor α) (r : Reading α) (clock : Clock) : Option (Sample α) :=
  ((c.watched r clock).liveSample? r clock.elapsed).map fun p => ⟨clock.now, p.1, p.2⟩

/-- Where no sample is taken only the watch has changed. -/
theorem poll_of_none {c : CopSensor α} {r : Reading α} {clock : Clock}
    (h : c.taken? r clock = none) : c.poll r clock = c.watched r clock := by
  have hlive : (c.watched r clock).liveSample? r clock.elapsed = none := by
    rw [taken?, Option.map_eq_none_iff] at h
    exact h
  unfold poll
  unfold watched at hlive ⊢
  dsimp only
  rw [hlive]

/-- A sample that is taken is added and starts a new interval. -/
theorem poll_of_some {c : CopSensor α} {r : Reading α} {clock : Clock} {m : Sample α}
    (h : c.taken? r clock = some m) :
    c.poll r clock = { c with
      watch := (c.watched r clock).watch
      window := c.window.add m
      nextSample := some (clock.elapsed.saturatingAdd c.minInterval) } := by
  rw [taken?, Option.map_eq_some_iff] at h
  obtain ⟨p, hlive, rfl⟩ := h
  unfold poll
  unfold watched at hlive ⊢
  dsimp only
  rw [hlive]
  rfl

theorem powers?_pos {c : CopSensor α} {r : Reading α} {p : α × α} (h : c.powers? r = some p) :
    0 < p.1 ∧ 0 < p.2 := by
  unfold powers? at h
  split at h
  next =>
    dsimp only at h
    split at h
    next hpos =>
      injection h with h
      subst h
      exact hpos
    next => exact absurd h (by simp)
  next => exact absurd h (by simp)

/-- A sample is taken when the interval is over, at the time of the wall, from
positive powers. -/
theorem of_taken? {c : CopSensor α} {r : Reading α} {clock : Clock} {m : Sample α}
    (h : c.taken? r clock = some m) :
    m.time = clock.now ∧ c.due clock.elapsed = true ∧ 0 < m.thermal ∧ 0 < m.electrical := by
  rw [taken?, Option.map_eq_some_iff] at h
  obtain ⟨p, hlive, rfl⟩ := h
  unfold liveSample? at hlive
  split at hlive
  next hgate =>
    simp only [Bool.and_eq_true] at hgate
    obtain ⟨hthermal, helectrical⟩ := powers?_pos hlive
    exact ⟨rfl, hgate.2, hthermal, helectrical⟩
  next => exact absurd hlive (by simp)

section

variable (c : CopSensor α) (r : Reading α) (clock : Clock)

@[simp] theorem settings_poll : (c.poll r clock).settings = c.settings := by
  unfold poll
  dsimp only
  split <;> rfl

@[simp] theorem mode_poll : (c.poll r clock).mode = c.mode := by
  unfold poll
  dsimp only
  split <;> rfl

@[simp] theorem rule_poll : (c.poll r clock).rule = c.rule := by
  unfold poll
  dsimp only
  split <;> rfl

@[simp] theorem watch_poll :
    (c.poll r clock).watch
      = c.watch.observe c.settings.defrost r.defrosting r.deltaT clock.elapsed := by
  unfold poll
  dsimp only
  split <;> rfl

end

/-- **One live reading extends the samples taken**, where the gate is shut for an interval
after the last one. -/
theorem Collected.poll {c : CopSensor α} {clock clock' : Clock} {ms : List (Sample α)}
    (h : Collected c clock ms) (hr : 0 ≤ c.settings.cop.retention)
    (hordinary : clock'.now.isLeap = false) (hle : clock.now ≤ clock'.now)
    (hgate : c.due clock'.elapsed = true →
      ∀ m ∈ ms.getLast?, m.time.linear + c.minInterval.nanos ≤ clock'.now.linear)
    (r : Reading α) :
    Collected (c.poll r clock') clock' (ms ++ (c.taken? r clock').toList) := by
  have hmoved := h.move hle
  -- a reading without a sample moves the watch, and no more
  cases htaken : c.taken? r clock' with
  | none =>
    rw [poll_of_none htaken, Option.toList_none, List.append_nil]
    exact { hmoved with }
  | some m =>
    obtain ⟨htime, hdue, -, -⟩ := of_taken? htaken
    have hordered : Chronological (ms ++ [m]) := by
      apply h.chronological.concat
      · rw [htime]
        exact hordinary
      · intro x hx
        rw [htime]
        exact hmoved.past x hx
    rw [poll_of_some htaken, Option.toList_some]
    exact {
      judged := by
        show (c.window.add m).settings = c.settings.cop
        rw [Window.settings_add, h.judged]
      window := h.window.add (by rw [h.judged]; exact hr) hordered
      chronological := hordered
      past := by
        rw [List.forall_mem_append, List.forall_mem_singleton]
        exact ⟨hmoved.past, le_of_eq htime⟩
      spaced := by
        -- the gate was open: the last sample is an interval back
        rw [List.isChain_append]
        refine ⟨h.spaced, List.isChain_singleton m, ?_⟩
        intro x hx y hy
        rw [List.head?_cons, Option.mem_some_iff] at hy
        rw [← hy, htime]
        exact hgate hdue x hx }

/-! ## §3. The invariant of a sensor that is shown readings in order. -/

/-- The sensor has taken `ms` by the time of `clock`, which began at `start`. -/
structure Sampled (start : Instant) (c : CopSensor α) (clock : Clock)
    (ms : List (Sample α)) : Prop where
  /-- The window is judged by the sensor's settings. -/
  judged : c.window.settings = c.settings.cop
  /-- The window holds the samples taken. -/
  window : c.window.Holds ms
  /-- The samples are in order of time. -/
  chronological : Chronological ms
  /-- No sample was taken before the start. -/
  started : ∀ m ∈ ms, start.linear ≤ m.time.linear
  /-- No sample is still to come. -/
  past : ∀ m ∈ ms, m.time ≤ clock.now
  /-- Both powers of every sample are positive. -/
  positive : ∀ m ∈ ms, 0 < m.thermal ∧ 0 < m.electrical
  /-- Two samples in a row are an interval apart. -/
  spaced : ms.IsChain fun a b => a.time.linear + (c.minInterval.nanos : Int) ≤ b.time.linear
  /-- The next sample waits for the interval after the last one. -/
  next : c.nextSample = ms.getLast?.map fun m =>
    (Clock.readingAt start m.time).saturatingAdd c.minInterval

theorem Sampled.collected {start : Instant} {c : CopSensor α} {clock : Clock}
    {ms : List (Sample α)} (h : Sampled start c clock ms) : Collected c clock ms :=
  ⟨h.judged, h.window, h.chronological, h.past, h.spaced⟩

theorem sampled_fresh (s : Settings α) (mode : Option Mode) (start : Instant) (clock : Clock) :
    Sampled start (fresh s mode) clock [] where
  judged := rfl
  window := Window.holds_ofSettings s.cop
  chronological := ⟨by simp, by simp⟩
  started := by simp
  past := by simp
  positive := by simp
  spaced := .nil
  next := rfl

/-- The interval is over when it is over since the last sample. -/
theorem Sampled.due_iff {start : Instant} {c : CopSensor α} {clock clock' : Clock}
    {ms : List (Sample α)} (h : Sampled start c clock ms) (hclock : clock'.InStep start) :
    c.due clock'.elapsed = true ↔
      ∀ m ∈ ms.getLast?, m.time.linear + c.minInterval.nanos ≤ clock'.now.linear := by
  unfold due
  rw [h.next]
  cases hlast : ms.getLast? with
  | none => simp
  | some m =>
    have hstart := h.started m (List.mem_of_getLast? hlast)
    simp only [Option.map_some, decide_eq_true_eq, Option.mem_some_iff, forall_eq']
    exact hclock.readingAt_add_le hstart c.minInterval

/-- **One live reading**, not before the last one, extends the samples taken. -/
theorem Sampled.poll {start : Instant} {c : CopSensor α} {clock clock' : Clock}
    {ms : List (Sample α)} (h : Sampled start c clock ms) (hr : 0 ≤ c.settings.cop.retention)
    (hclock : clock'.InStep start) (hle : clock.now ≤ clock'.now) (r : Reading α) :
    Sampled start (c.poll r clock') clock' (ms ++ (c.taken? r clock').toList) := by
  have hcollected := h.collected.poll hr hclock.ordinary hle (h.due_iff hclock).1 r
  cases htaken : c.taken? r clock' with
  | none =>
    rw [poll_of_none htaken, Option.toList_none, List.append_nil]
    exact { h with past := (h.collected.move hle).past }
  | some m =>
    obtain ⟨htime, -, hthermal, helectrical⟩ := of_taken? htaken
    have hstart : start.linear ≤ m.time.linear := by
      have helapsed := hclock.elapsed
      rw [htime]
      omega
    rw [htaken, Option.toList_some] at hcollected
    rw [Option.toList_some]
    exact {
      judged := hcollected.judged
      window := hcollected.window
      chronological := hcollected.chronological
      started := by
        rw [List.forall_mem_append, List.forall_mem_singleton]
        exact ⟨h.started, hstart⟩
      past := hcollected.past
      positive := by
        rw [List.forall_mem_append, List.forall_mem_singleton]
        exact ⟨h.positive, hthermal, helectrical⟩
      spaced := hcollected.spaced
      next := by
        rw [poll_of_some htaken, List.getLast?_concat, Option.map_some, htime,
          ← hclock.elapsed_eq]
        rfl }

/-! ## §4. A whole run. -/

/-- A sensor and its clock after records, the clock set to each before the sensor is
shown it. -/
def follow (c : CopSensor α) (clock : Clock) : List (Record α) → CopSensor α × Clock
  | [] => (c, clock)
  | r :: rest =>
    follow (c.poll r.reading (clock.set r.time).1) (clock.set r.time).1 rest

/-- The samples taken along the way. -/
def takenAlong (c : CopSensor α) (clock : Clock) : List (Record α) → List (Sample α)
  | [] => []
  | r :: rest =>
    (c.taken? r.reading (clock.set r.time).1).toList
      ++ takenAlong (c.poll r.reading (clock.set r.time).1) (clock.set r.time).1 rest

/-- **A run in order of time extends the samples taken** by what it takes along the
way, and leaves the clock in step. -/
theorem Sampled.follow {start : Instant} {c : CopSensor α} {clock : Clock}
    {ms : List (Sample α)} (h : Sampled start c clock ms) (hr : 0 ≤ c.settings.cop.retention)
    (hclock : clock.InStep start) {records : List (Record α)}
    (hrecords : Record.Follows clock.now records) :
    Sampled start (c.follow clock records).1 (c.follow clock records).2
      (ms ++ c.takenAlong clock records)
    ∧ (c.follow clock records).1.settings = c.settings := by
  induction records generalizing c clock ms with
  | nil =>
    rw [takenAlong, List.append_nil]
    exact ⟨h, rfl⟩
  | cons r rest ih =>
    -- the clock is set forward and stays in step, then one reading is shown
    obtain ⟨hordinary, hle, hrest⟩ := hrecords.cons
    obtain ⟨hnow, hstep⟩ := hclock.set hordinary hle
    have hpoll := h.poll hr hstep (by rw [hnow]; exact hle) r.reading
    rw [CopSensor.follow, takenAlong, ← List.append_assoc]
    obtain ⟨hsampled, hsettings⟩ := ih hpoll (by rw [settings_poll]; exact hr) hstep
      (by rw [hnow]; exact hrest)
    exact ⟨hsampled, by rw [hsettings, settings_poll]⟩

end HeatMeter.CopSensor
