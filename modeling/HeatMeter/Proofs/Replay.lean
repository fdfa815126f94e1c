/-
  HeatMeter.Proofs.Replay
  ───────────────────────
  **THE WINDOWS OF A REPLAY ARE WELL FORMED AFTER EVERY RECORD.**

  A meter shows every reading to five sensors, one for all modes and one for each.
  In a replay each of them is a sensor that follows the records, so what holds of
  one sensor along a run holds of all five.

  A window is WELL FORMED when its samples are

      spaced        an interval apart, each from the one before
      in order      none older than one before it
      recent        not older than the retention, from the newest
      positive      in both powers
      few           at most `maxMeasurements`, and no more than fit the retention
                    at one an interval
-/
import HeatMeter.Proofs.Cop.Backfill
import HeatMeter.Replay

namespace HeatMeter

variable {α : Type}

/-! ## §1. Well-formed windows. -/

/-- The length of a list of samples an interval apart is bounded by its span. -/
theorem span_of_spaced {interval : Int} {m : Sample α} {ms : List (Sample α)}
    (h : (m :: ms).IsChain fun a b => a.time.linear + interval ≤ b.time.linear) :
    ∀ newest ∈ (m :: ms).getLast?,
      m.time.linear + ms.length * interval ≤ newest.time.linear := by
  induction ms generalizing m with
  | nil =>
    intro newest hnewest
    rw [List.getLast?_singleton, Option.mem_some_iff] at hnewest
    rw [hnewest, List.length_nil]
    omega
  | cons next ms ih =>
    obtain ⟨hnext, hrest⟩ := List.isChain_cons_cons.1 h
    intro newest hnewest
    rw [List.getLast?_cons_cons] at hnewest
    have hspan := ih hrest newest hnewest
    have hlength : ((next :: ms).length : Int) * interval
        = ms.length * interval + interval := by
      rw [List.length_cons, Int.natCast_add_one, Int.add_mul, Int.one_mul]
    omega

/-- So many intervals of whole seconds fit into a retention of whole minutes. -/
theorem le_div_of_span {count interval minutes : Int} (hpos : 0 < interval)
    (h : count * (interval * 1000000000) ≤ minutes * 60 * 1000000000) :
    count ≤ minutes * 60 / interval := by
  have hscale : count * (interval * 1000000000) = count * interval * 1000000000 :=
    (Int.mul_assoc _ _ _).symm
  apply Int.le_ediv_of_mul_le hpos
  omega

variable [Scalar α]

/-- What can be said of the samples in a window at any time. -/
structure Window.WellFormed (w : Window α) : Prop where
  /-- Two samples in a row are an interval apart. -/
  spaced : w.samples.toList.IsChain fun a b =>
    (w.settings.minIntervalSeconds : Int) * 1000000000 ≤ b.time.since a.time
  /-- No sample is older than one before it. -/
  sorted : w.samples.toList.Pairwise fun a b => a.time ≤ b.time
  /-- No sample is past the retention. -/
  recent : ∀ newest ∈ w.samples.back?, ∀ m ∈ w.samples.toList,
    newest.time.since m.time ≤ w.settings.retentionMinutes * 60 * 1000000000
  /-- Both powers of every sample are positive. -/
  positive : ∀ m ∈ w.samples.toList, 0 < m.thermal ∧ 0 < m.electrical
  /-- There is room for the samples. -/
  bounded : w.samples.size ≤ w.settings.maxMeasurements
  /-- There are no more samples than intervals in the retention, and one. -/
  sparse : 1 ≤ w.settings.minIntervalSeconds →
    (w.samples.size : Int)
      ≤ w.settings.retentionMinutes * 60 / w.settings.minIntervalSeconds + 1

namespace CopSensor

section

variable {start : Instant} {c : CopSensor α} {clock : Clock} {ms : List (Sample α)}

theorem Sampled.recent (h : Sampled start c clock ms) (hs : c.settings.fault? = none)
    {newest m : Sample α} (hnewest : newest ∈ c.window.samples.back?)
    (hm : m ∈ c.window.samples.toList) :
    newest.time.linear - m.time.linear
      ≤ c.settings.cop.retentionMinutes * 60 * 1000000000 := by
  obtain ⟨hpos, hyear, -⟩ := Settings.cop_bounds hs
  have hheld := h.window.toList
  rw [h.judged] at hheld
  have hlast : newest ∈ (ms.rtake c.settings.cop.maxMeasurements).getLast? := by
    rw [← getLast?_retained (Int.le_of_lt (Settings.retention_pos hs)), ← hheld]
    exact hnewest
  rw [hheld] at hm
  have hkept := le_of_mem_retained (h.chronological.of_isSuffix (rtake_suffix _ _)) hlast hm
  rw [CopSettings.retention_eq hpos hyear] at hkept
  omega

/-- The window holds no more samples than intervals fit into the retention, and one. -/
theorem Sampled.size_le_div (h : Sampled start c clock ms) (hs : c.settings.fault? = none)
    (hinterval : 1 ≤ c.settings.cop.minIntervalSeconds) :
    (c.window.samples.size : Int)
      ≤ c.settings.cop.retentionMinutes * 60 / c.settings.cop.minIntervalSeconds + 1 := by
  have hspaced : c.window.samples.toList.IsChain fun a b =>
      a.time.linear + (c.settings.cop.minIntervalSeconds : Int) * 1000000000
        ≤ b.time.linear := by
    have hordinary := h.collected.ordered.ordinary
    apply h.collected.spacedBySeconds.imp_of_mem_imp
    intro a b ha hb hsince
    rw [Instant.since_eq (hordinary b hb) (hordinary a ha)] at hsince
    omega
  obtain ⟨hpos, -, -⟩ := Settings.cop_bounds hs
  have hdiv : 0 ≤ c.settings.cop.retentionMinutes * 60
      / (c.settings.cop.minIntervalSeconds : Int) := by
    apply Int.ediv_nonneg <;> omega
  show (c.window.samples.toList.length : Int) ≤ _
  cases hheld : c.window.samples.toList with
  | nil =>
    rw [List.length_nil]
    omega
  | cons m rest =>
    rw [hheld] at hspaced
    have hlast : (m :: rest).getLast (List.cons_ne_nil m rest)
        ∈ (m :: rest).getLast? := List.getLast?_eq_some_getLast _
    have hspan := span_of_spaced hspaced _ hlast
    have hrecent := h.recent hs (by rw [Queue.back?, hheld]; exact hlast)
      (by rw [hheld]; exact List.mem_cons_self)
    -- from the oldest sample to the newest there is an interval for each of the others
    have hcount : (rest.length : Int) ≤ c.settings.cop.retentionMinutes * 60
        / c.settings.cop.minIntervalSeconds := by
      apply le_div_of_span
      · omega
      · omega
    rw [List.length_cons]
    omega

/-- **The window of a sensor that is shown readings in order is well formed.** -/
theorem Sampled.wellFormed (h : Sampled start c clock ms) (hs : c.settings.fault? = none) :
    c.window.WellFormed := by
  have hcollected := h.collected
  have hordinary := hcollected.ordered.ordinary
  refine ⟨?_, hcollected.ordered.sorted, ?_,
    fun m hm => h.positive m (hcollected.isSuffix.mem hm), ?_, ?_⟩
  · rw [h.judged]
    exact hcollected.spacedBySeconds
  · intro newest hnewest m hm
    rw [h.judged, Instant.since_eq
      (hordinary newest (List.mem_of_getLast? hnewest)) (hordinary m hm)]
    exact h.recent hs hnewest hm
  · have hle := (retained_suffix c.window.settings.retention
      (ms.rtake c.window.settings.maxMeasurements)).length_le
    rw [← h.window.toList, length_rtake] at hle
    show c.window.samples.toList.length ≤ _
    omega
  · rw [h.judged]
    exact h.size_le_div hs

end

end CopSensor

/-! ## §2. The sensors of a meter. -/

namespace Meter

/-- The sensor of a mode, or of all modes. -/
def sensor (m : Meter α) : Option Mode → CopSensor α
  | none => m.cop
  | some k => m.copByMode.get k

theorem sensor_poll (m : Meter α) (r : Reading α) (clock : Clock) (mode : Option Mode) :
    (m.poll r clock).sensor mode = (m.sensor mode).poll r clock := by
  cases mode with
  | none => rfl
  | some k => exact PerMode.get_map _ _ k

theorem sensor_withHeat (s : Settings α) (heat : HeatCounter α) (mode : Option Mode) :
    (withHeat s heat).sensor mode = .fresh s mode := by
  cases mode with
  | none => rfl
  | some k => exact PerMode.get_ofFn _ k

end Meter

/-! ## §3. Replays. -/

namespace Replay

theorem sensor_startingAt (s : Settings α) (kept : Option (EnergySnapshot α)) (now : Instant)
    (mode : Option Mode) : (startingAt s kept now).meter.sensor mode = .fresh s mode := by
  cases kept with
  | none => exact Meter.sensor_withHeat s _ mode
  | some kept => exact Meter.sensor_withHeat s _ mode

theorem follow_sensor (p : Replay α) (records : List (Record α)) (mode : Option Mode) :
    ((p.run records).meter.sensor mode, (p.run records).clock)
      = (p.meter.sensor mode).follow p.clock records := by
  induction records generalizing p with
  | nil => rfl
  | cons r rest ih =>
    show (((p.step r).run rest).meter.sensor mode, ((p.step r).run rest).clock) = _
    rw [ih, CopSensor.follow]
    show ((p.meter.poll r.reading (p.clock.set r.time).1).sensor mode).follow _ rest = _
    rw [Meter.sensor_poll]
    rfl

/-- **After every record of a replay the windows are well formed**, that of all modes
and that of each, under the settings of the meter. -/
theorem window_wellFormed {s : Settings α} (hs : s.fault? = none)
    (kept : Option (EnergySnapshot α)) {records done : List (Record α)} {first : Record α}
    (hordinary : ∀ r ∈ records, r.time.isLeap = false)
    (hfirst : (Record.inOrder records).head? = some first)
    (hdone : done <+: Record.inOrder records) (mode : Option Mode) :
    ((((startingAt s kept first.time).run done).meter.sensor mode).window.settings = s.cop)
      ∧ (((startingAt s kept first.time).run done).meter.sensor mode).window.WellFormed := by
  have hfollows := Record.inOrder_follows hordinary hfirst
  have hstart : (Clock.startingAt first.time).InStep first.time :=
    Clock.startingAt_inStep (hfollows.ordinary first (List.mem_of_head? hfirst))
  have hempty := CopSensor.sampled_fresh s mode first.time (.startingAt first.time)
  obtain ⟨hsampled, hsettings⟩ := hempty.follow (Int.le_of_lt (Settings.retention_pos hs))
    hstart (hfollows.of_isPrefix hdone)
  -- the sensor of the meter is a fresh one that has followed the records
  have hsensor : ((startingAt s kept first.time).run done).meter.sensor mode
      = ((CopSensor.fresh s mode).follow (.startingAt first.time) done).1 := by
    have hpair := follow_sensor (startingAt s kept first.time) done mode
    rw [sensor_startingAt] at hpair
    exact congrArg Prod.fst hpair
  rw [hsensor]
  refine ⟨?_, hsampled.wellFormed (by rw [hsettings]; exact hs)⟩
  rw [hsampled.judged, hsettings]
  rfl

/-- A log of the steady unit whose lines are out of order. -/
def steadyLog : List (Record Float) :=
  [⟨.ofFirstDay 60, CopSensor.steadyReading 52⟩, ⟨.ofFirstDay 0, CopSensor.steadyReading 50⟩,
    ⟨.ofFirstDay 90, CopSensor.steadyReading 54⟩]

/-- The heating window of the steady unit is well formed and holds two samples. -/
theorem window_wellFormed_of_steadyLog :
    (((startingAt .standard none (.ofFirstDay 0)).run
        (Record.inOrder steadyLog)).meter.sensor (some .heating)).window.WellFormed
    ∧ (((startingAt .standard none (.ofFirstDay 0)).run
        (Record.inOrder steadyLog)).meter.sensor (some .heating)).window.samples.size = 2 := by
  have hsorted : Record.inOrder steadyLog
      = [⟨.ofFirstDay 0, CopSensor.steadyReading 50⟩, ⟨.ofFirstDay 60, CopSensor.steadyReading 52⟩,
        ⟨.ofFirstDay 90, CopSensor.steadyReading 54⟩] := by cbv
  have hfirst : (Record.inOrder steadyLog).head?
      = some ⟨.ofFirstDay 0, CopSensor.steadyReading 50⟩ := by
    rw [hsorted]
    rfl
  refine ⟨(window_wellFormed (by decide) none (by decide) hfirst (List.prefix_refl _)
    (some .heating)).2, ?_⟩
  rw [hsorted]
  decide +kernel

end Replay

end HeatMeter
