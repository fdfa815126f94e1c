/-
  HeatMeter.Proofs.Cop.Backfill
  ─────────────────────────────
  **FILLING A SENSOR FROM ITS CHANNELS IS SHOWING IT THE CHANNELS LIVE.**

  A backfill picks samples by the spans between recorded instants and loads them
  at once; a live sensor measures intervals on the monotonic clock, adds samples
  one by one and evicts after each.  Where no defrost cycle is recorded the two
  pick the same samples, `Sampled.takenAlong_eq`, and the same samples make the
  same window.
-/
import HeatMeter.Proofs.Channels
import HeatMeter.Proofs.Cop.Sensor
import HeatMeter.Proofs.Settings
import Mathlib

namespace HeatMeter.CopSensor

variable {α : Type}

/-! ## §1. Recorded samples, one record at a time. -/

/-- A configured interval that is a span is the interval between recorded samples. -/
theorem recordedInterval_eq {c : CopSensor α}
    (h : c.settings.cop.minIntervalSeconds ≤ 9223372036854775807 / 1000) :
    c.recordedInterval = c.minInterval.nanos := by
  have hnanos : c.minInterval.nanos = c.settings.cop.minIntervalSeconds * 1000000000 :=
    CopSettings.nanos_minInterval (by omega)
  have hspan : (c.minInterval.nanos : Int) ≤ maxSpan := by
    rw [hnanos]
    unfold maxSpan
    omega
  rw [recordedInterval, Duration.span?, if_pos hspan, Option.getD_some]

/-- Only the time of the next sample is put off. -/
theorem holdAfter_keeps (c : CopSensor α) (last : Instant) (clock : Clock) :
    (c.holdAfter last clock).window = c.window
      ∧ (c.holdAfter last clock).settings = c.settings
      ∧ (c.holdAfter last clock).watch = c.watch := by
  rw [holdAfter]
  extract_lets
  split
  · exact ⟨rfl, rfl, rfl⟩
  · exact ⟨rfl, rfl, rfl⟩

/-- Whether an instant is within the interval after the last sample. -/
def tooSoon (c : CopSensor α) (last : Option Instant) (t : Instant) : Bool :=
  match last with
  | some l => decide (t.since l < c.recordedInterval)
  | none => false

variable [Scalar α]

/-- The sample taken from a record, given the instant of the last one taken. -/
def recordedSample? (c : CopSensor α) (last : Option Instant) (r : Record α) :
    Option (Sample α) :=
  if r.reading.defrosting || !c.accepts r.reading.mode || !r.reading.running
      || c.tooSoon last r.time then none
  else (c.powers? r.reading).map fun p => ⟨r.time, p.1, p.2⟩

/-- The sample of the first record comes first and begins the next interval. -/
theorem recordedSamples_cons (c : CopSensor α) (last : Option Instant) (r : Record α)
    (rest : List (Record α)) :
    c.recordedSamples last (r :: rest)
      = (c.recordedSample? last r).toList
        ++ c.recordedSamples (((c.recordedSample? last r).map Sample.time).or last) rest := by
  obtain ⟨t, reading⟩ := r
  rw [recordedSamples.eq_def, recordedSample?, tooSoon.eq_def]
  cases last with
  | none =>
    dsimp only
    split
    · rfl
    · cases c.powers? reading <;> rfl
  | some l =>
    dsimp only
    split
    · rfl
    · cases c.powers? reading <;> rfl

/-- What is taken from a record depends on mode, settings and rule alone. -/
theorem recordedSample?_congr {c d : CopSensor α} (hmode : d.mode = c.mode)
    (hsettings : d.settings = c.settings) (hrule : d.rule = c.rule) (last : Option Instant)
    (r : Record α) : d.recordedSample? last r = c.recordedSample? last r := by
  cases c
  cases d
  dsimp only at hmode hsettings hrule
  subst hmode hsettings hrule
  rfl

theorem recordedSamples_congr {c d : CopSensor α} (hmode : d.mode = c.mode)
    (hsettings : d.settings = c.settings) (hrule : d.rule = c.rule) (last : Option Instant)
    (records : List (Record α)) :
    d.recordedSamples last records = c.recordedSamples last records := by
  induction records generalizing last with
  | nil => rfl
  | cons r rest ih =>
    rw [recordedSamples_cons, recordedSamples_cons,
      recordedSample?_congr hmode hsettings hrule, ih]

/-! ## §2. The live sensor takes the same samples. -/

/-- A watch that has seen no defrost cycle stays as it is. -/
theorem watched_eq {c : CopSensor α} {r : Reading α} (hnormal : c.watch.phase = .normal)
    (hr : r.defrosting = false) (clock : Clock) : c.watched r clock = c := by
  have hwatch : c.watch.observe c.settings.defrost r.defrosting r.deltaT clock.elapsed
      = c.watch := by
    rw [DefrostWatch.observe, hnormal, hr]
    rfl
  rw [watched, hwatch]

/-- The recorded gate is shut when the live one is. -/
theorem Sampled.tooSoon_eq {start : Instant} {c : CopSensor α} {clock clock' : Clock}
    {ms : List (Sample α)} (h : Sampled start c clock ms) (hclock : clock'.InStep start)
    (hinterval : c.settings.cop.minIntervalSeconds ≤ 9223372036854775807 / 1000) :
    c.tooSoon (ms.getLast?.map Sample.time) clock'.now = !c.due clock'.elapsed := by
  have hdue := h.due_iff hclock
  cases hlast : ms.getLast? with
  | none =>
    rw [hlast] at hdue
    rw [hdue.2 (by simp)]
    rfl
  | some m =>
    -- between ordinary instants the span is the difference that the live gate measures
    have hspan : clock'.now.since m.time = clock'.now.linear - m.time.linear :=
      Instant.since_eq hclock.ordinary
        (h.chronological.ordinary m (List.mem_of_getLast? hlast))
    simp only [hlast, Option.mem_some_iff, forall_eq'] at hdue
    rw [Option.map_some, tooSoon, hspan, recordedInterval_eq hinterval]
    cases hopen : c.due clock'.elapsed with
    | true =>
      rw [Bool.not_true, decide_eq_false_iff_not]
      have := hdue.1 hopen
      omega
    | false =>
      rw [Bool.not_false, decide_eq_true_eq]
      have : ¬ m.time.linear + (c.minInterval.nanos : Int) ≤ clock'.now.linear := by
        intro hover
        rw [hdue.2 hover] at hopen
        exact absurd hopen (by simp)
      omega

/-- **A live reading is sampled when a record of it is.** -/
theorem Sampled.taken?_eq {start : Instant} {c : CopSensor α} {clock clock' : Clock}
    {ms : List (Sample α)} (h : Sampled start c clock ms) (hclock : clock'.InStep start)
    (hinterval : c.settings.cop.minIntervalSeconds ≤ 9223372036854775807 / 1000)
    (hnormal : c.watch.phase = .normal) {r : Reading α} (hr : r.defrosting = false) :
    c.taken? r clock'
      = c.recordedSample? (ms.getLast?.map Sample.time) ⟨clock'.now, r⟩ := by
  have hreliable : c.watch.reliable = true := by
    rw [DefrostWatch.reliable, hnormal]
    rfl
  rw [taken?, watched_eq hnormal hr, liveSample?, recordedSample?,
    h.tooSoon_eq hclock hinterval, hreliable]
  dsimp only
  rw [hr]
  cases c.accepts r.mode <;> cases r.running <;> cases c.due clock'.elapsed <;> rfl

/-- **A sensor that is shown records live takes the recorded samples.** -/
theorem Sampled.takenAlong_eq {start : Instant} {c : CopSensor α} {clock : Clock}
    {ms : List (Sample α)} (h : Sampled start c clock ms) (hr : 0 ≤ c.settings.cop.retention)
    (hclock : clock.InStep start)
    (hinterval : c.settings.cop.minIntervalSeconds ≤ 9223372036854775807 / 1000)
    (hnormal : c.watch.phase = .normal) {records : List (Record α)}
    (hrecords : Record.Follows clock.now records)
    (hnever : ∀ r ∈ records, r.reading.defrosting = false) :
    c.takenAlong clock records
      = c.recordedSamples (ms.getLast?.map Sample.time) records := by
  induction records generalizing c clock ms with
  | nil => rfl
  | cons r rest ih =>
    obtain ⟨hordinary, hle, hrest⟩ := hrecords.cons
    obtain ⟨hnow, hstep⟩ := hclock.set hordinary hle
    have hquiet : r.reading.defrosting = false := hnever r List.mem_cons_self
    have htaken : c.taken? r.reading (clock.set r.time).1
        = c.recordedSample? (ms.getLast?.map Sample.time) r := by
      rw [h.taken?_eq hstep hinterval hnormal hquiet, hnow]
    have hpoll := h.poll hr hstep (by rw [hnow]; exact hle) r.reading
    -- the watch is still normal, and the last sample of both sides is the same
    have hwatch : (c.poll r.reading (clock.set r.time).1).watch.phase = .normal := by
      rw [watch_poll]
      show (c.watched r.reading (clock.set r.time).1).watch.phase = .normal
      rw [watched_eq hnormal hquiet, hnormal]
    have hlast : (ms ++ (c.taken? r.reading (clock.set r.time).1).toList).getLast?.map Sample.time
        = ((c.taken? r.reading (clock.set r.time).1).map Sample.time).or
          (ms.getLast?.map Sample.time) := by
      rw [List.getLast?_append]
      cases c.taken? r.reading (clock.set r.time).1 <;> rfl
    rw [takenAlong, recordedSamples_cons, ← htaken,
      ih hpoll (by rw [settings_poll]; exact hr) hstep (by rw [settings_poll]; exact hinterval)
        hwatch (by rw [hnow]; exact hrest)
        (fun x hx => hnever x (List.mem_cons_of_mem r hx)),
      recordedSamples_congr (mode_poll ..) (settings_poll ..) (rule_poll ..), hlast]

/-! ## §3. The same samples make the same window. -/

/-- A sensor after records shown live, under a clock that starts at the first. -/
def live (c : CopSensor α) (records : List (Record α)) : CopSensor α :=
  match records.head? with
  | none => c
  | some first => (c.follow (.startingAt first.time) records).1

theorem window_backfill (c : CopSensor α) (channels : Channels α) (clock : Clock) :
    (c.backfill channels clock).1.window
      = c.window.load (c.recordedSamples none channels.records) := by
  unfold backfill preload
  dsimp only
  cases (c.recordedSamples none channels.records).getLast? with
  | none => rfl
  | some m => rw [(c.holdAfter_keeps m.time clock).1]

/-- A backfill fills the window and holds the next sample back, and touches nothing
else. -/
theorem backfill_keeps (c : CopSensor α) (channels : Channels α) (clock : Clock) :
    (c.backfill channels clock).1.settings = c.settings
      ∧ (c.backfill channels clock).1.watch = c.watch := by
  unfold backfill preload
  dsimp only
  cases (c.recordedSamples none channels.records).getLast? with
  | none => exact ⟨rfl, rfl⟩
  | some m => exact (c.holdAfter_keeps m.time clock).2

/-- **A fresh sensor that is filled from channels ends up like one that is shown them
live**: the same samples, the same coefficient and the same quality. -/
theorem backfill_eq_live {s : Settings α} (hs : s.fault? = none)
    (hinterval : s.cop.minIntervalSeconds ≤ 9223372036854775807 / 1000) (mode : Option Mode)
    {channels : Channels α} (hnever : ∀ x ∈ channels.defrost, x.2 = false)
    (hordinary : ∀ t ∈ channels.instants, t.isLeap = false) (clock : Clock) :
    ((fresh s mode).backfill channels clock).1.window
        = ((fresh s mode).live channels.records).window
      ∧ ((fresh s mode).backfill channels clock).1.value?
        = ((fresh s mode).live channels.records).value?
      ∧ ((fresh s mode).backfill channels clock).1.quality
        = ((fresh s mode).live channels.records).quality := by
  have hwindow : ((fresh s mode).backfill channels clock).1.window
      = ((fresh s mode).live channels.records).window := by
    rw [window_backfill, live]
    cases hfirst : channels.records.head? with
    | none =>
      rw [List.head?_eq_none_iff.1 hfirst]
      rfl
    | some first =>
      have hretention : 0 ≤ s.cop.retention := Int.le_of_lt (Settings.retention_pos hs)
      have hfollows := Channels.records_follow hordinary hfirst
      have hstart : (Clock.startingAt first.time).InStep first.time :=
        Clock.startingAt_inStep (hfollows.ordinary first (List.mem_of_head? hfirst))
      -- the live window holds what was taken along the way, the filled one what was recorded
      have hempty := sampled_fresh s mode first.time (.startingAt first.time)
      obtain ⟨hsampled, hsettings⟩ := hempty.follow hretention hstart hfollows
      have htaken : (fresh s mode).takenAlong (.startingAt first.time) channels.records
          = (fresh s mode).recordedSamples none channels.records :=
        hempty.takenAlong_eq hretention hstart hinterval rfl hfollows
          (fun r hr => Channels.defrosting_of_mem_records hnever hr)
      rw [htaken] at hsampled
      have hload := (Window.holds_ofSettings s.cop).load hretention hsampled.chronological
      apply hload.unique hsampled.window
      rw [hsampled.judged, hsettings, Window.settings_load]
      rfl
  refine ⟨hwindow, ?_, ?_⟩
  · rw [value?, value?, hwindow]
  · rw [quality, quality, hwindow]

/-- A unit that heats steadily, its compressor seen three times in two minutes. -/
def steadyChannels : Channels Float where
  inlet := [(.ofFirstDay 0, 30)]
  outlet := [(.ofFirstDay 0, 35)]
  flow := [(.ofFirstDay 0, 1)]
  current := [(.ofFirstDay 0, 5)]
  frequency := [(.ofFirstDay 60, 52), (.ofFirstDay 0, 50), (.ofFirstDay 90, 54)]
  mode := [(.ofFirstDay 0, .heating)]

/-- What the steady unit shows while its compressor has this frequency. -/
def steadyReading (frequency : Float) : Reading Float where
  inlet := some 30
  outlet := some 35
  flow := some 1
  current := some 5
  frequency := some frequency
  mode := some .heating

/-- The steady unit gives two samples either way. -/
theorem backfill_eq_live_of_steadyChannels :
    ((fresh .standard (some .heating)).backfill steadyChannels
        (.startingAt (.ofFirstDay 90))).1.window
      = ((fresh .standard (some .heating)).live steadyChannels.records).window
    ∧ ((fresh .standard (some .heating)).live steadyChannels.records).window.samples.size
      = 2 := by
  have hinstants : steadyChannels.instants
      = [.ofFirstDay 0, .ofFirstDay 60, .ofFirstDay 90] := by cbv
  have hrecords : steadyChannels.records
      = [⟨.ofFirstDay 0, steadyReading 50⟩, ⟨.ofFirstDay 60, steadyReading 52⟩,
        ⟨.ofFirstDay 90, steadyReading 54⟩] := by cbv
  have hordinary : ∀ t ∈ steadyChannels.instants, t.isLeap = false := by
    rw [hinstants]
    decide
  refine ⟨(backfill_eq_live (by decide) (by decide) (some .heating) (by decide) hordinary
    (.startingAt (.ofFirstDay 90))).1, ?_⟩
  rw [hrecords]
  decide +kernel

end HeatMeter.CopSensor
