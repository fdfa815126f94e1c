/-
  HeatMeter.Proofs.Cop.Restart
  ────────────────────────────
  **SAMPLES STAY AN INTERVAL APART ACROSS A RESTART.**

  A sensor that is filled from channels and then shown live readings measures the
  interval in three ways:

      recorded to recorded   by the span between the two instants
      recorded to live       by what is left of the interval when it is filled,
                             counted on the monotonic clock from then on
      live to live           on the monotonic clock alone

  They agree as long as the clock keeps time, that is, as long as it moves forward and
  shows no leap second.  `Resumed` is what the sensor keeps up then; `Resumed.step` is
  one reading or one move of the clock, `Resumed.run` a whole run.
-/
import HeatMeter.Proofs.Clock.Forward
import HeatMeter.Proofs.Cop.Reliability

namespace HeatMeter.CopSensor

variable {α : Type}

/-! ## §1. The gate after a backfill. -/

/-- **Where an interval left over from a recorded sample ends, an interval after it has
passed.** -/
theorem le_of_due_holdAfter {c : CopSensor α} (hnone : c.nextSample = none) {last : Instant}
    {clock clock' : Clock} (hlast : last.isLeap = false) (hle : last ≤ clock.now)
    (hnow : clock.now.isLeap = false) (hample : clock.Ample) (hkeeps : clock.KeepsTime clock')
    (hdue : (c.holdAfter last clock).due clock'.elapsed = true) :
    last.linear + c.minInterval.nanos ≤ clock'.now.linear := by
  have hspan := Instant.since_eq hnow hlast
  have hpassed := (Instant.linear_le_linear hlast hnow).2 hle
  have hfirst := Instant.firstLinear_le last
  have hend := Instant.linear_lt hnow
  have hlong : (Duration.longestNanos : Int) = 18446744073709551615999999999 := rfl
  unfold Instant.firstLinear at hfirst
  obtain ⟨passed, hofSpan, hnanos⟩ :=
    Duration.ofSpan?_eq_some (clock.now.since last) (by omega) (by omega)
  have hremaining : (c.minInterval.saturatingSub passed).nanos
      = c.minInterval.nanos - passed.nanos := rfl
  have hlater := hkeeps.later
  unfold holdAfter at hdue
  rw [hofSpan, Option.getD_some, hnone] at hdue
  dsimp only at hdue
  by_cases hover : c.minInterval.saturatingSub passed = .zero
  · -- the interval was over before the sensor was filled
    rw [hover] at hremaining
    have hzero : Duration.zero.nanos = 0 := rfl
    omega
  · rw [if_neg hover] at hdue
    unfold due at hdue
    rw [decide_eq_true_eq, Duration.le_def, Duration.nanos_saturatingAdd] at hdue
    have hshort := hample.elapsed_lt hkeeps
    have helapsed := hkeeps.elapsed
    omega

/-- The gate does not depend on the window. -/
theorem due_preload (c : CopSensor α) (ms : List (Sample α)) (now : Duration) :
    (c.preload ms).due now = c.due now :=
  rfl

/-! ## §2. What a sensor keeps up after it was filled. -/

/-- The sensor has collected `ms`, and its gate is shut for an interval after the last of
them as long as the clock keeps time. -/
structure Resumed (s : Settings α) (c : CopSensor α) (clock : Clock) (ms : List (Sample α)) :
    Prop where
  /-- The settings are the configured ones. -/
  settings : c.settings = s
  /-- The window holds the samples, an interval apart. -/
  collected : Collected c clock ms
  /-- An open gate means that the interval has passed. -/
  waits : ∀ clock' : Clock, clock.KeepsTime clock' → c.due clock'.elapsed = true →
    ∀ m ∈ ms.getLast?, m.time.linear + c.minInterval.nanos ≤ clock'.now.linear
  /-- There is room for the clock to move forward. -/
  ample : clock.Ample
  /-- The clock shows no leap second. -/
  ordinary : clock.now.isLeap = false

section

variable {s : Settings α} {c : CopSensor α} {clock clock' : Clock} {ms : List (Sample α)}

theorem Resumed.move (h : Resumed s c clock ms) (hmove : Clock.Forward clock clock')
    (hordinary : clock'.now.isLeap = false) : Resumed s c clock' ms := by
  obtain ⟨hle, hample⟩ := h.ample.forward hmove
  have hkeeps := h.ample.keepsTime hmove h.ordinary hordinary
  exact {
    settings := h.settings
    collected := h.collected.move hle
    waits := fun later hlater => h.waits later (hkeeps.trans hlater)
    ample := hample
    ordinary := hordinary }

end

variable [Scalar α]

theorem Resumed.poll {s : Settings α} {c : CopSensor α} {clock : Clock} {ms : List (Sample α)}
    (h : Resumed s c clock ms) (hr : 0 ≤ s.cop.retention) (r : Reading α) :
    Resumed s (c.poll r clock) clock (ms ++ (c.taken? r clock).toList) := by
  refine ⟨(settings_poll c r clock).trans h.settings,
    h.collected.poll (by rw [h.settings]; exact hr) h.ordinary (le_refl _)
      (h.waits clock (Clock.keepsTime_self h.ordinary)) r, ?_, h.ample, h.ordinary⟩
  intro clock' hkeeps hdue m hm
  cases htaken : c.taken? r clock with
  | none =>
    rw [htaken, Option.toList_none, List.append_nil] at hm
    rw [poll_of_none htaken] at hdue ⊢
    exact h.waits clock' hkeeps hdue m hm
  | some taken =>
    -- the gate is shut from the sample on
    rw [htaken, Option.toList_some, List.getLast?_concat, Option.mem_some_iff] at hm
    subst hm
    rw [poll_of_some htaken] at hdue ⊢
    unfold due at hdue
    rw [decide_eq_true_eq, Duration.le_def, Duration.nanos_saturatingAdd] at hdue
    rw [(of_taken? htaken).1]
    have hshort := h.ample.elapsed_lt hkeeps
    have helapsed := hkeeps.elapsed
    show clock.now.linear + (c.minInterval.nanos : Int) ≤ clock'.now.linear
    omega

/-! ## §3. A sensor that is filled. -/

/-- No sample is taken from a record too soon after the last one. -/
theorem tooSoon_of_recordedSample? {c : CopSensor α} {last : Option Instant} {r : Record α}
    {m : Sample α} (h : c.recordedSample? last r = some m) : c.tooSoon last r.time = false := by
  unfold recordedSample? at h
  split at h
  next => exact absurd h (by simp)
  next hgate =>
    simp only [Bool.or_eq_true, not_or] at hgate
    exact Bool.eq_false_iff.2 hgate.2

/-- **Recorded samples are an interval apart**, the first of them from the last one taken
before. -/
theorem times_recordedSamples_spaced (c : CopSensor α) (last : Option Instant)
    {records : List (Record α)} (hlast : ∀ l ∈ last, l.isLeap = false)
    (hordinary : ∀ r ∈ records, r.time.isLeap = false) :
    (last.toList ++ (c.recordedSamples last records).map Sample.time).IsChain
      fun a b => a.linear + c.recordedInterval ≤ b.linear := by
  induction records generalizing last with
  | nil => cases last <;> simp [recordedSamples]
  | cons r rest ih =>
    have hrest : ∀ x ∈ rest, x.time.isLeap = false :=
      fun x hx => hordinary x (List.mem_cons_of_mem r hx)
    rw [recordedSamples_cons]
    cases hsample : c.recordedSample? last r with
    | none => exact ih last hlast hrest
    | some m =>
      have htime : m.time = r.time := (of_recordedSample? hsample).1
      have hr : r.time.isLeap = false := hordinary r List.mem_cons_self
      have hlater := ih (some m.time) (by simpa [htime] using hr) hrest
      cases last with
      | none => exact hlater
      | some l =>
        -- the gate was open: the last sample is an interval back
        have hgate := tooSoon_of_recordedSample? hsample
        rw [tooSoon, Instant.since_eq hr (hlast l rfl), decide_eq_false_iff_not] at hgate
        refine List.isChain_cons_cons.2 ⟨?_, hlater⟩
        rw [htime]
        omega

/-- Where the interval is a span, that is the interval of the live gate. -/
theorem recordedSamples_isChain {c : CopSensor α}
    (hinterval : c.settings.cop.minIntervalSeconds ≤ 9223372036854775807 / 1000)
    {channels : Channels α} (hordinary : ∀ t ∈ channels.instants, t.isLeap = false) :
    (c.recordedSamples none channels.records).IsChain fun a b =>
      a.time.linear + (c.minInterval.nanos : Int) ≤ b.time.linear := by
  have hspaced := times_recordedSamples_spaced c none (by simp)
    (Channels.records_ordinary hordinary)
  rw [recordedInterval_eq hinterval, Option.toList_none, List.nil_append,
    List.isChain_map] at hspaced
  exact hspaced

theorem due_backfill {c : CopSensor α} {channels : Channels α} {m : Sample α}
    (hm : m ∈ (c.recordedSamples none channels.records).getLast?) (clock : Clock)
    (now : Duration) :
    (c.backfill channels clock).1.due now = (c.holdAfter m.time clock).due now := by
  unfold backfill
  dsimp only
  rw [due_preload, hm]

/-- **A sensor that is filled from channels of the past keeps this up.** -/
theorem resumed_backfill {s : Settings α} {clock : Clock} (hs : s.fault? = none)
    (hinterval : s.cop.minIntervalSeconds ≤ 9223372036854775807 / 1000) (mode : Option Mode)
    {channels : Channels α} (hordinary : ∀ t ∈ channels.instants, t.isLeap = false)
    (hample : clock.Ample) (hnow : clock.now.isLeap = false)
    (hpast : ∀ t ∈ channels.instants, t ≤ clock.now) :
    Resumed s ((fresh s mode).backfill channels clock).1 clock
      ((fresh s mode).recordedSamples none channels.records) := by
  have hsettings : ((fresh s mode).backfill channels clock).1.settings = s :=
    ((fresh s mode).backfill_keeps channels clock).1
  have hchronological := recordedSamples_chronological hordinary (fresh s mode) none
  have hsamples : ∀ m ∈ (fresh s mode).recordedSamples none channels.records,
      m.time ≤ clock.now := by
    intro m hm
    obtain ⟨r, hr, htime, -⟩ := exists_record_of_mem hm
    rw [htime]
    exact hpast _ (Channels.time_mem_instants hr)
  have hminInterval : ((fresh s mode).backfill channels clock).1.minInterval
      = (fresh s mode).minInterval := by
    rw [minInterval, hsettings]
    rfl
  refine ⟨hsettings, ⟨?_, ?_, hchronological, hsamples, ?_⟩, ?_, hample, hnow⟩
  · rw [window_backfill, Window.settings_load, hsettings]
    rfl
  · rw [window_backfill]
    exact (Window.holds_ofSettings s.cop).load (Int.le_of_lt (Settings.retention_pos hs))
      hchronological
  · rw [hminInterval]
    exact recordedSamples_isChain hinterval hordinary
  · intro clock' hkeeps hdue m hm
    have hmem := List.mem_of_getLast? hm
    rw [hminInterval]
    refine le_of_due_holdAfter rfl (hchronological.ordinary m hmem) (hsamples m hmem) hnow
      hample hkeeps ?_
    rw [← due_backfill hm]
    exact hdue

/-! ## §4. Runs. -/

/-- A reading is shown to the sensor, or its clock moves forward. -/
inductive Step : CopSensor α × Clock → CopSensor α × Clock → Prop where
  /-- A reading is shown. -/
  | poll (c : CopSensor α) (clock : Clock) (r : Reading α) : Step (c, clock) (c.poll r clock, clock)
  /-- The clock moves. -/
  | move (c : CopSensor α) {clock clock' : Clock} (h : Clock.Forward clock clock') :
    Step (c, clock) (c, clock')

/-- A step after which the clock shows no leap second. -/
def OrdinaryStep (p q : CopSensor α × Clock) : Prop :=
  Step p q ∧ q.2.now.isLeap = false

section

variable {s : Settings α} {p q : CopSensor α × Clock} {ms : List (Sample α)}

theorem Resumed.step (h : Resumed s p.1 p.2 ms) (hr : 0 ≤ s.cop.retention)
    (hstep : OrdinaryStep p q) : ∃ more, Resumed s q.1 q.2 (ms ++ more) := by
  obtain ⟨hstep, hordinary⟩ := hstep
  cases hstep with
  | poll c clock r => exact ⟨_, h.poll hr r⟩
  | move c hmove => exact ⟨[], by rw [List.append_nil]; exact h.move hmove hordinary⟩

/-- **A whole run keeps this up.** -/
theorem Resumed.run (h : Resumed s p.1 p.2 ms) (hr : 0 ≤ s.cop.retention)
    (hrun : Relation.ReflTransGen OrdinaryStep p q) :
    ∃ more, Resumed s q.1 q.2 (ms ++ more) := by
  induction hrun with
  | refl => exact ⟨[], by rw [List.append_nil]; exact h⟩
  | tail _ hstep ih =>
    obtain ⟨before, hresumed⟩ := ih
    obtain ⟨more, hnext⟩ := hresumed.step hr hstep
    exact ⟨before ++ more, by rw [← List.append_assoc]; exact hnext⟩

end

/-- **Samples stay an interval apart across a restart.**  A fresh sensor is filled from
channels of the past, under a clock that has only moved forward; then it is shown readings
while its clock moves forward and shows no leap second.  At any time the samples in its
window are in order, and each is as many seconds after the one before as configured,
whether they were recorded, taken live, or one of each. -/
theorem window_spaced_after_restart {s : Settings α} (hs : s.fault? = none)
    (hinterval : s.cop.minIntervalSeconds ≤ 9223372036854775807 / 1000) (mode : Option Mode)
    {channels : Channels α} (hordinary : ∀ t ∈ channels.instants, t.isLeap = false)
    {start : Instant} {clock : Clock}
    (hclock : Relation.ReflTransGen Clock.Forward (.startingAt start) clock)
    (hnow : clock.now.isLeap = false) (hpast : ∀ t ∈ channels.instants, t ≤ clock.now)
    {p : CopSensor α × Clock}
    (hrun : Relation.ReflTransGen OrdinaryStep
      (((fresh s mode).backfill channels clock).1, clock) p) :
    (p.1.window.samples.toList.Pairwise fun a b => a.time ≤ b.time)
      ∧ p.1.window.samples.toList.IsChain fun a b =>
        (s.cop.minIntervalSeconds : Int) * 1000000000 ≤ b.time.since a.time := by
  have hample := (Clock.ample_startingAt start).run hclock
  have hfilled := resumed_backfill hs hinterval mode hordinary hample hnow hpast
  obtain ⟨more, hresumed⟩ := hfilled.run (Int.le_of_lt (Settings.retention_pos hs)) hrun
  refine ⟨hresumed.collected.ordered.sorted, ?_⟩
  rw [← hresumed.settings]
  exact hresumed.collected.spacedBySeconds

/-- The steady unit is read half a minute after its last record, and again. -/
def steadyRestart : CopSensor Float × Clock :=
  (((((fresh .standard (some .heating)).backfill steadyChannels
      (.startingAt (.ofFirstDay 90))).1.poll (steadyReading 54)
        (.startingAt (.ofFirstDay 90))).poll (steadyReading 50)
          ((Clock.startingAt (.ofFirstDay 90)).set (.ofFirstDay 120)).1),
    ((Clock.startingAt (.ofFirstDay 90)).set (.ofFirstDay 120)).1)

/-- Two recorded samples are followed by a live one when the interval is over. -/
theorem window_spaced_after_steadyRestart :
    (steadyRestart.1.window.samples.toList.IsChain fun a b =>
        60 * 1000000000 ≤ b.time.since a.time)
      ∧ steadyRestart.1.window.samples.toList.map Sample.time
        = [.ofFirstDay 0, .ofFirstDay 60, .ofFirstDay 120] := by
  have hinstants : steadyChannels.instants
      = [.ofFirstDay 0, .ofFirstDay 60, .ofFirstDay 90] := by cbv
  have hrecords : steadyChannels.records
      = [⟨.ofFirstDay 0, steadyReading 50⟩, ⟨.ofFirstDay 60, steadyReading 52⟩,
        ⟨.ofFirstDay 90, steadyReading 54⟩] := by cbv
  have hordinary : ∀ t ∈ steadyChannels.instants, t.isLeap = false := by
    rw [hinstants]
    decide
  have hpast : ∀ t ∈ steadyChannels.instants, t ≤ (.ofFirstDay 90 : Instant) := by
    rw [hinstants]
    decide
  have hrun : Relation.ReflTransGen OrdinaryStep
      (((fresh .standard (some .heating)).backfill steadyChannels
        (.startingAt (.ofFirstDay 90))).1, .startingAt (.ofFirstDay 90)) steadyRestart :=
    .tail (.tail (.single ⟨.poll _ _ (steadyReading 54), rfl⟩)
      ⟨.move _ (.set _ (by decide)), rfl⟩) ⟨.poll _ _ (steadyReading 50), rfl⟩
  have hclock : Relation.ReflTransGen Clock.Forward (.startingAt (.ofFirstDay 90))
      (.startingAt (.ofFirstDay 90)) := .refl
  refine ⟨(window_spaced_after_restart (by decide) (by decide) (some .heating) hordinary
    hclock rfl hpast hrun).2, ?_⟩
  have hsorted : ((fresh .standard (some .heating)).recordedSamples none
      steadyChannels.records).Pairwise fun a b => a.time ≤ b.time := by
    rw [hrecords]
    decide +kernel
  unfold steadyRestart backfill preload Window.load Sample.inOrder
  dsimp only
  rw [Instant.mergeSort_of_sorted hsorted, hrecords]
  decide +kernel

/-- An instant of the last minute of 2016, which ends with a leap second, or of the minute
after it. -/
def aroundLeapSecond (second : Fin 120) (nanos : Fin 2000000000) : Instant :=
  ⟨1483228740 + second, nanos, by omega, nanos.isLt⟩

/-- The steady unit, recorded half a minute before the leap second. -/
def leapEveChannels : Channels Float where
  inlet := [(aroundLeapSecond 30 0, 30)]
  outlet := [(aroundLeapSecond 30 0, 35)]
  flow := [(aroundLeapSecond 30 0, 1)]
  current := [(aroundLeapSecond 30 0, 5)]
  frequency := [(aroundLeapSecond 30 0, 50)]
  mode := [(aroundLeapSecond 30 0, .heating)]

/-- A clock that is set to the end of the leap second, to the new year, and to 29.1 seconds
after it. -/
def leapClock : Clock :=
  ((((Clock.startingAt (aroundLeapSecond 30 0)).set (aroundLeapSecond 59 1900000000)).1.set
    (aroundLeapSecond 60 0)).1.set (aroundLeapSecond 89 100000000)).1

/-- The unit is filled from its record and read under that clock. -/
def leapRestart : CopSensor Float × Clock :=
  (((fresh .standard none).backfill leapEveChannels
    (.startingAt (aroundLeapSecond 30 0))).1.poll (steadyReading 50) leapClock, leapClock)

/-- **A leap second on the clock can shorten an interval.**  The span into the leap second
counts the part of it that has passed, the span out of it counts nothing back, and the
monotonic clock shows a minute when 59.1 seconds have passed. -/
theorem window_not_spaced_over_leapSecond :
    (.standard : Settings Float).fault? = none
      ∧ (.standard : Settings Float).cop.minIntervalSeconds ≤ 9223372036854775807 / 1000
      ∧ (∀ t ∈ leapEveChannels.instants, t.isLeap = false ∧ t ≤ aroundLeapSecond 30 0)
      ∧ Relation.ReflTransGen Step (((fresh .standard none).backfill leapEveChannels
        (.startingAt (aroundLeapSecond 30 0))).1, .startingAt (aroundLeapSecond 30 0)) leapRestart
      ∧ ¬ leapRestart.1.window.samples.toList.IsChain fun a b =>
        ((.standard : Settings Float).cop.minIntervalSeconds : Int) * 1000000000
          ≤ b.time.since a.time := by
  have hinstants : leapEveChannels.instants = [aroundLeapSecond 30 0] := by cbv
  have hrecords : leapEveChannels.records
      = [⟨aroundLeapSecond 30 0, steadyReading 50⟩] := by cbv
  have hrun : Relation.ReflTransGen Step (((fresh .standard none).backfill leapEveChannels
      (.startingAt (aroundLeapSecond 30 0))).1, .startingAt (aroundLeapSecond 30 0))
      leapRestart :=
    .tail (.tail (.tail (.single (.move _ (.set _ (by decide)))) (.move _ (.set _ (by decide))))
      (.move _ (.set _ (by decide)))) (.poll _ _ (steadyReading 50))
  have htimes : leapRestart.1.window.samples.toList.map Sample.time
      = [aroundLeapSecond 30 0, aroundLeapSecond 89 100000000] := by
    unfold leapRestart backfill
    rw [hrecords]
    decide +kernel
  refine ⟨by decide, by decide, ?_, hrun, ?_⟩
  · rw [hinstants]
    decide
  · intro hspaced
    have hchain := (List.isChain_map Sample.time (R := fun a b : Instant =>
      ((.standard : Settings Float).cop.minIntervalSeconds : Int) * 1000000000
        ≤ b.since a)).2 hspaced
    rw [htimes] at hchain
    revert hchain
    decide

end HeatMeter.CopSensor
