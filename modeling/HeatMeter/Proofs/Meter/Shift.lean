/-
  HeatMeter.Proofs.Meter.Shift
  ────────────────────────────
  **A REPLAY DOES NOT KNOW WHAT DAY IT IS.**

  The records of one log are those of another, shifted by whole days.  Every part of the
  meter keeps instants only to measure spans and to compare days, so that a relation
  between the two meters survives every record:

      part          equal                              shifted by days
      sensors       powers, deadline, watch            samples
      compressor    durations                          transitions
      heat          energies, powers, lock and kind    baseline, day and its start

  `Meter.Shifted.poll` is one record and `Replay.Shifted.run` a log; `run_shifted` is what
  the meters then show.  It asks that the retention, counted back from a record, does not
  lead past the end of the calendar: on that day a retention below zero evicts nothing,
  and on every other day everything.
-/
import HeatMeter.Proofs.Compressor
import HeatMeter.Proofs.Cop.Shift
import HeatMeter.Proofs.Meter.Run

namespace HeatMeter

variable {α : Type} {days : Int} {t t' : Instant}

/-! ## §1. The compressor. -/

namespace CompressorLog

/-- The same state, observed at shifted instants. -/
structure ShiftedState (days : Int) (x x' : Instant × Bool) : Prop where
  time : x.1.Shifted days x'.1
  running : x'.2 = x.2

/-- The same durations, between shifted transitions. -/
structure Shifted (days : Int) (l l' : CompressorLog α) : Prop where
  transitions : Queue.Pairs (ShiftedState days) l.transitions l'.transitions
  cycles : l'.cycles = l.cycles
  runs : l'.runs = l.runs
  rests : l'.rests = l.rests
  last : Option.Rel (ShiftedState days) l.last l'.last
  lastOn : Option.Rel (Instant.Shifted days) l.lastOn l'.lastOn

variable {l l' : CompressorLog α}

theorem shifted_ofCapacity (n : Nat) (days : Int) :
    (ofCapacity n : CompressorLog α).Shifted days (ofCapacity n) :=
  ⟨Queue.pairs_bounded _, rfl, rfl, rfl, .none, .none⟩

theorem Shifted.lastOn_enter (h : l.Shifted days l') (running : Bool) (ht : t.Shifted days t') :
    Option.Rel (Instant.Shifted days) (if running then some t else l.lastOn)
      (if running then some t' else l'.lastOn) := by
  cases running with
  | true => exact .some ht
  | false => exact h.lastOn

variable [Scalar α]

/-- The same cycle ends. -/
theorem Shifted.cycles_endCycle (h : l.Shifted days l') (ht : t.Shifted days t') :
    (l'.endCycle t').cycles = (l.endCycle t).cycles := by
  unfold endCycle
  rw [h.transitions.size]
  rcases rel_cases h.lastOn with ⟨hnone, hnone'⟩ | ⟨on, on', hon, hon', hshift⟩
  · simp only [hnone, hnone', h.cycles]
  · simp only [hon, hon', hshift.since ht, h.cycles]
    split
    · rfl
    · exact h.cycles

/-- **One observation at shifted instants** adds the same duration, if any. -/
theorem Shifted.observe (h : l.Shifted days l') (running : Bool) (ht : t.Shifted days t') :
    (l.observe running t).Shifted days (l'.observe running t') := by
  rcases rel_cases h.last with ⟨hnone, hnone'⟩ | ⟨a, a', hlast, hlast', htime, hstate⟩
  · rw [observe_of_none hnone, observe_of_none hnone']
    exact ⟨h.transitions.push ⟨ht, rfl⟩, h.cycles, h.runs, h.rests, .some ⟨ht, rfl⟩,
      h.lastOn_enter running ht⟩
  · by_cases hsame : a.2 = running
    · rw [observe_of_repeat hlast hsame, observe_of_repeat hlast' (hstate.trans hsame)]
      exact h
    · have hsame' : a'.2 ≠ running := by
        rw [hstate]
        exact hsame
      have hminutes : (minutesBetween a'.1 t' : α) = minutesBetween a.1 t := by
        unfold minutesBetween
        rw [htime.since ht]
      rw [observe_of_change hlast hsame, observe_of_change hlast' hsame', hminutes,
        h.cycles_endCycle ht, h.cycles, h.runs, h.rests]
      exact ⟨h.transitions.push ⟨ht, rfl⟩, rfl, rfl, rfl, .some ⟨ht, rfl⟩,
        h.lastOn_enter running ht⟩

theorem Shifted.averages (h : l.Shifted days l') : l'.averages = l.averages := by
  unfold CompressorLog.averages
  rw [h.cycles, h.runs, h.rests]

end CompressorLog

/-! ## §2. The heat counter. -/

theorem Date.eq_iff_day {d e : Date} : d = e ↔ d.day = e.day := by
  cases d
  cases e
  rw [Date.mk.injEq]

namespace HeatCounter

/-- The same counters, counted from a shifted baseline on days as far apart. -/
inductive Shifted (days : Int) (c : HeatCounter α) : HeatCounter α → Prop where
  | intro {baseline : Option Instant} {dayStart : Instant} {resetDate : Date}
      (hbaseline : Option.Rel (Instant.Shifted days) c.baseline baseline)
      (hstart : c.dayStart.Shifted days dayStart)
      (hdate : resetDate.day = c.resetDate.day + days) :
      Shifted days c
        { c with baseline := baseline, dayStart := dayStart, resetDate := resetDate }

variable {c c' : HeatCounter α}

/-- The remembered powers and the kind may be replaced on both sides. -/
theorem Shifted.with (h : c.Shifted days c') (power : ByKind α → ByKind α)
    (kind : Option HeatKind → Option HeatKind) :
    ({ c with power := power c.power, kind := kind c.kind } : HeatCounter α).Shifted days
      { c' with power := power c'.power, kind := kind c'.kind } := by
  obtain ⟨hbaseline, hstart, hdate⟩ := h
  exact .intro hbaseline hstart hdate

variable [Scalar α]

theorem shifted_startingAt (ht : t.Shifted days t') :
    (startingAt t : HeatCounter α).Shifted days (startingAt t') :=
  .intro .none ht ht.day

/-- Both days end, or neither does. -/
theorem Shifted.rollOver (h : c.Shifted days c') (ht : t.Shifted days t') :
    (c.rollOver t).Shifted days (c'.rollOver t') := by
  obtain ⟨hbaseline, hstart, hdate⟩ := h
  -- two dates are equal exactly if the shifted ones are
  have hsame : t'.date.day = c.resetDate.day + days ↔ t.date.day = c.resetDate.day := by
    have hday := ht.day
    omega
  unfold HeatCounter.rollOver
  simp only [Date.eq_iff_day, hdate, hsame]
  split
  · exact .intro hbaseline hstart hdate
  · exact .intro hbaseline ht ht.day

/-- The same energy is counted since the baseline. -/
theorem Shifted.accrue (h : c.Shifted days c') (power : α) (k : HeatKind)
    (ht : t.Shifted days t') : (c.accrue power k t).Shifted days (c'.accrue power k t') := by
  obtain ⟨hbaseline, hstart, hdate⟩ := h
  unfold HeatCounter.accrue
  dsimp only
  rcases rel_cases hbaseline with ⟨hnone, rfl⟩ | ⟨last, last', hlast, rfl, hshift⟩
  · rw [hnone]
    exact .intro hbaseline hstart hdate
  · rw [hlast]
    dsimp only
    rw [hshift.since ht]
    split
    · exact .intro (.some hshift) hstart hdate
    · exact .intro hbaseline hstart hdate

theorem Shifted.count (h : c.Shifted days c') (power : α) (k : HeatKind)
    (ht : t.Shifted days t') : (c.count power k t).Shifted days (c'.count power k t') := by
  have haccrued := (h.rollOver ht).accrue power k ht
  unfold HeatCounter.count
  dsimp only
  generalize (c.rollOver t).accrue power k t = d at haccrued ⊢
  generalize (c'.rollOver t').accrue power k t' = d' at haccrued ⊢
  obtain ⟨-, hstart, hdate⟩ := haccrued
  exact .intro (.some ht) hstart hdate

theorem Shifted.lock (h : c.Shifted days c') (running : Bool) (p : ByKind α) :
    (c.lock running p).1.Shifted days (c'.lock running p).1
      ∧ (c'.lock running p).2 = (c.lock running p).2 := by
  obtain ⟨hbaseline, hstart, hdate⟩ := h
  unfold HeatCounter.lock
  dsimp only
  split
  · exact ⟨.intro hbaseline hstart hdate, rfl⟩
  · split
    · exact ⟨.intro hbaseline hstart hdate, rfl⟩
    · split
      · exact ⟨.intro hbaseline hstart hdate, rfl⟩
      · exact ⟨.intro hbaseline hstart hdate, rfl⟩

theorem Shifted.advance (h : c.Shifted days c') (p : ByKind α) (ht : t.Shifted days t') :
    (c.advance p t).Shifted days (c'.advance p t') := by
  have hkind : c'.kind = c.kind := by cases h; rfl
  unfold HeatCounter.advance
  rw [hkind]
  split
  · exact (h.count p.heating .heating ht).with (·.set .cooling 0) fun _ => some .heating
  · split
    · exact (h.count p.cooling .cooling ht).with (·.set .heating 0) fun _ => some .cooling
    · split
      next k _ => exact (h.count 0 k ht).with (fun _ => .both 0) id
      next => exact h

/-- **One update at shifted instants.** -/
theorem Shifted.update (h : c.Shifted days c') (p : ByKind α) (running : Bool)
    (mode : Option Mode) (ht : t.Shifted days t') :
    (c.update p running mode t).Shifted days (c'.update p running mode t') := by
  -- the same powers pass the lock, and they are counted by shifted counters
  obtain ⟨hlock, hpowers⟩ := h.lock running (assign mode p)
  unfold HeatCounter.update
  dsimp only
  rw [hpowers]
  exact hlock.advance _ ht

end HeatCounter

/-! ## §3. The meter. -/

namespace Meter

variable [Scalar α] {m m' : Meter α} {clock clock' : Clock}

/-- Every part is shifted, and the settings and the watch are the same. -/
structure Shifted (days : Int) (m m' : Meter α) : Prop where
  settings : m'.settings = m.settings
  watch : m'.watch = m.watch
  heat : m.heat.Shifted days m'.heat
  sensor : ∀ mode, (m.sensor mode).Shifted days (m'.sensor mode)
  /-- All sensors have the settings of the meter. -/
  common : ∀ mode, (m.sensor mode).settings = m.settings
  compressor : m.compressor.Shifted days m'.compressor

theorem shifted_startingAt (s : Settings α) (ht : t.Shifted days t') :
    (startingAt s t).Shifted days (startingAt s t') where
  settings := rfl
  watch := rfl
  heat := HeatCounter.shifted_startingAt ht
  sensor mode := by
    unfold startingAt
    rw [sensor_withHeat, sensor_withHeat]
    exact CopSensor.shifted_fresh s mode days
  common mode := by
    unfold startingAt
    rw [sensor_withHeat]
    rfl
  compressor := CompressorLog.shifted_ofCapacity _ days

/-- **One reading at shifted instants** leaves shifted meters. -/
theorem Shifted.poll (h : m.Shifted days m') (hclock : clock.Shifted days clock')
    (hback : clock.now.CountsBack m.settings.cop.retention)
    (hback' : clock'.now.CountsBack m.settings.cop.retention) (r : Reading α) :
    (m.poll r clock).Shifted days (m'.poll r clock') where
  settings := h.settings
  watch := by
    unfold Meter.poll
    dsimp only
    rw [h.watch, h.settings, hclock.elapsed]
  heat := by
    unfold Meter.poll
    dsimp only
    rw [h.watch, h.settings, hclock.elapsed]
    split
    · exact h.heat.update _ _ _ hclock.now
    · exact h.heat
  sensor mode := by
    rw [sensor_poll, sensor_poll]
    refine (h.sensor mode).poll hclock ?_ ?_ r
    · rw [h.common]
      exact hback
    · rw [h.common]
      exact hback'
  common mode := by
    rw [sensor_poll, CopSensor.settings_poll]
    exact h.common mode
  compressor := h.compressor.observe _ hclock.now

/-- Two meters show and keep the same, but for the day of their counters. -/
structure SameButDay (days : Int) (m m' : Meter α) : Prop where
  summary : m'.summary = { m.summary with dayStart := m'.summary.dayStart }
  /-- The daily counters started at the same time of day. -/
  dayStart : m.summary.dayStart.Shifted days m'.summary.dayStart
  snapshot : m'.snapshot = { m.snapshot with resetDate := m'.snapshot.resetDate }
  /-- The daily counters belong to days as far apart. -/
  resetDate : Option.Rel (fun d d' : Date => d'.day = d.day + days) m.snapshot.resetDate
    m'.snapshot.resetDate

theorem Shifted.sameButDay (h : m.Shifted days m') : m.SameButDay days m' := by
  have hreport (mode : Option Mode) : report (m'.sensor mode) = report (m.sensor mode) := by
    unfold report
    rw [(h.sensor mode).value?, (h.sensor mode).quality]
  have hmodes : m'.copByMode.map report = m.copByMode.map report := by
    unfold PerMode.map
    rw [PerMode.mk.injEq]
    exact ⟨hreport (some .heating), hreport (some .cooling), hreport (some .dhw),
      hreport (some .pool)⟩
  -- what is left of a summary and of a snapshot are counters, which are equal
  obtain ⟨settings, watch, heat, cop, copByMode, compressor⟩ := m
  obtain ⟨settings', watch', heat', cop', copByMode', compressor'⟩ := m'
  obtain ⟨hbaseline, hstart, hdate⟩ := h.heat
  refine ⟨?_, hstart, rfl, .some hdate⟩
  unfold summary
  rw [h.watch, h.compressor.averages, hmodes]
  have hcop : report cop' = report cop := hreport none
  rw [hcop]

end Meter

/-! ## §4. Replays. -/

/-- The same reading at a shifted instant. -/
structure Record.Shifted (days : Int) (r r' : Record α) : Prop where
  time : r.time.Shifted days r'.time
  reading : r'.reading = r.reading

/-- Putting shifted logs in order of time keeps records together. -/
theorem Record.forall₂_inOrder {records records' : List (Record α)}
    (h : List.Forall₂ (Record.Shifted days) records records') :
    List.Forall₂ (Record.Shifted days) (inOrder records) (inOrder records') := by
  refine forall₂_mergeSort h ?_
  intro a b x y hax hby
  rw [decide_eq_decide, hax.time.le_iff hby.time]

namespace Replay

variable [Scalar α] {p p' : Replay α} {records records' : List (Record α)}

/-- Shifted meters under shifted clocks, from which the retention counts back. -/
structure Shifted (days : Int) (s : Settings α) (p p' : Replay α) : Prop where
  meter : p.meter.Shifted days p'.meter
  clock : p.clock.Shifted days p'.clock
  settings : p.meter.settings = s
  back : p.clock.now.CountsBack s.cop.retention
  back' : p'.clock.now.CountsBack s.cop.retention

/-- **One record on each side** leaves shifted replays. -/
theorem Shifted.step {s : Settings α} (h : p.Shifted days s p') {r r' : Record α}
    (hr : r.Shifted days r') (hback : r.time.CountsBack s.cop.retention)
    (hback' : r'.time.CountsBack s.cop.retention) :
    (p.step r).Shifted days s (p'.step r') := by
  have hclock := h.clock.set hr.time
  have hnow := Clock.countsBack_set h.back hback
  have hnow' := Clock.countsBack_set h.back' hback'
  have hmeter := h.meter.poll hclock (by rw [h.settings]; exact hnow)
    (by rw [h.settings]; exact hnow') r.reading
  unfold Replay.step
  rw [hr.reading]
  exact ⟨hmeter, hclock, h.settings, hnow, hnow'⟩

theorem Shifted.run {s : Settings α} (h : p.Shifted days s p')
    (hrecords : List.Forall₂ (Record.Shifted days) records records')
    (hback : ∀ r ∈ records, r.time.CountsBack s.cop.retention)
    (hback' : ∀ r ∈ records', r.time.CountsBack s.cop.retention) :
    (p.run records).Shifted days s (p'.run records') := by
  -- by induction on the pairs of records; every step begins from shifted replays
  induction hrecords generalizing p p' with
  | nil => exact h
  | cons hr _ ih =>
    rw [List.forall_mem_cons] at hback hback'
    exact ih (h.step hr hback.1 hback'.1) hback.2 hback'.2

/-- **A replay is the same on any day**, the day of its counters apart: for every log
without leap seconds that is shifted by whole days, in the order of its lines or in
order of time, under all settings whose retention does not lead past the end of the
calendar. -/
theorem run_shifted (s : Settings α) {start start' : Instant} (hstart : start.Shifted days start')
    (hrecords : List.Forall₂ (Record.Shifted days) records records')
    (hback : ∀ t ∈ start :: records.map Record.time, t.CountsBack s.cop.retention)
    (hback' : ∀ t ∈ start' :: records'.map Record.time, t.CountsBack s.cop.retention) :
    ((startingAt s none start).run records).meter.SameButDay days
        ((startingAt s none start').run records').meter
      ∧ ((startingAt s none start).run (Record.inOrder records)).meter.SameButDay days
        ((startingAt s none start').run (Record.inOrder records')).meter := by
  rw [List.forall_mem_cons, List.forall_mem_map] at hback hback'
  have hopening : (startingAt s none start).Shifted days s (startingAt s none start') :=
    ⟨Meter.shifted_startingAt s hstart, Clock.shifted_startingAt hstart, rfl, hback.1, hback'.1⟩
  refine ⟨(hopening.run hrecords hback.2 hback'.2).meter.sameButDay, ?_⟩
  refine (hopening.run (Record.forall₂_inOrder hrecords) ?_ ?_).meter.sameButDay
  · intro r hr
    exact hback.2 r (List.mem_mergeSort.1 hr)
  · intro r hr
    exact hback'.2 r (List.mem_mergeSort.1 hr)

/-- The instant so many seconds into the fourth day counted. -/
def ofFourthDay (second : Nat) : Instant :=
  ⟨259200 + (second % 86400 : Nat), 0, by omega, Instant.firstDay_nanos_lt⟩

/-- The log of the steady unit, three days later. -/
def laterLog : List (Record Float) :=
  [⟨ofFourthDay 60, CopSensor.steadyReading 52⟩, ⟨ofFourthDay 0, CopSensor.steadyReading 50⟩,
    ⟨ofFourthDay 90, CopSensor.steadyReading 54⟩]

/-- Three days later the steady unit shows the same. -/
theorem run_shifted_of_steadyLog :
    List.Forall₂ (Record.Shifted 3) steadyLog laterLog
      ∧ ((startingAt .standard none (.ofFirstDay 0)).run
          (Record.inOrder steadyLog)).meter.SameButDay 3
        ((startingAt .standard none (ofFourthDay 0)).run
          (Record.inOrder laterLog)).meter := by
  have hrecords : List.Forall₂ (Record.Shifted 3) steadyLog laterLog :=
    .cons ⟨by decide, rfl⟩ (.cons ⟨by decide, rfl⟩ (.cons ⟨by decide, rfl⟩ .nil))
  refine ⟨hrecords, ?_⟩
  exact (run_shifted .standard (by decide) hrecords (by decide) (by decide)).2

/-! ## §5. The last half minute of the calendar. -/

/-- A retention of a minute below zero. -/
def negativeRetention : Settings Float :=
  { Settings.standard with cop := { CopSettings.standard with retentionMinutes := -1 } }

/-- Half a minute before the end of the calendar. -/
def lastHalfMinute : Instant :=
  ⟨8210266876770, 0, by decide, Instant.firstDay_nanos_lt⟩

/-- The same time on the day before. -/
def dayBefore : Instant :=
  ⟨8210266790370, 0, by decide, Instant.firstDay_nanos_lt⟩

/-- **With a retention below zero a sample stays on the last day of the calendar and goes
on the day before.** -/
theorem not_sameButDay_of_lastHalfMinute :
    lastHalfMinute.Shifted (-1) dayBefore
      ∧ ¬ ((startingAt negativeRetention none lastHalfMinute).run
          [⟨lastHalfMinute, CopSensor.steadyReading 50⟩]).meter.SameButDay (-1)
        ((startingAt negativeRetention none dayBefore).run
          [⟨dayBefore, CopSensor.steadyReading 50⟩]).meter := by
  refine ⟨by decide, ?_⟩
  intro h
  have hcount := congrArg (fun s : Summary Float => s.cop.quality.count) h.summary
  revert hcount
  decide +kernel

end Replay

end HeatMeter
