/-
  HeatMeter.Proofs.Cop.Reliability
  ────────────────────────────────
  **WHICH RECORDED SAMPLES A WATCH WOULD NOT HAVE TRUSTED.**

  A backfill leaves out the records that are defrosting and asks no watch.  A watch
  that is shown the same records is not normal for longer: it stays in recovery until a
  record ends that.  So a sample of the filled window is untrusted exactly where it was
  taken in a recovery.

      watchInputs       what a watch is shown of records, times from the first of them
      RespectsDefrost   no sample is taken at a record after which the watch is not
                        normal

  `toList_window_backfill` says which samples a filled window holds, and a unit that is
  seen shortly after a defrost has one of its recovery among them.
-/
import HeatMeter.Proofs.Cop.Backfill
import HeatMeter.Proofs.Defrost.Trace

namespace HeatMeter

variable {α : Type}

/-! ## §1. What a watch is shown of records. -/

namespace Record

theorem readingAt_le {start a b : Instant} (h : a.linear ≤ b.linear) :
    Clock.readingAt start a ≤ Clock.readingAt start b := by
  rw [Duration.le_def]
  show min (a.linear - start.linear).toNat _ ≤ min (b.linear - start.linear).toNat _
  omega

variable [Scalar α]

/-- What a watch is shown of a record, its time counted from `start`. -/
def watchInput (start : Instant) (r : Record α) : WatchInput α :=
  ⟨r.reading.defrosting, r.reading.deltaT, Clock.readingAt start r.time⟩

/-- What a watch is shown of records, their times counted from the first of them. -/
def watchInputs : List (Record α) → List (WatchInput α)
  | [] => []
  | first :: rest => (first :: rest).map (watchInput first.time)

theorem watchInputs_concat (done : List (Record α)) (r : Record α) :
    ∃ inputs i, watchInputs (done ++ [r]) = inputs ++ [i]
      ∧ i.defrosting = r.reading.defrosting := by
  cases done with
  | nil => exact ⟨[], watchInput r.time r, rfl, rfl⟩
  | cons first rest =>
    refine ⟨(first :: rest).map (watchInput first.time), watchInput first.time r, ?_, rfl⟩
    show (first :: (rest ++ [r])).map (watchInput first.time) = _
    rw [← List.cons_append, List.map_append, List.map_singleton]

/-- **Records in order of time are shown in order.** -/
theorem Follows.watchInputs_inOrder {now : Instant} {records : List (Record α)}
    (h : Follows now records) : DefrostWatch.InOrder (watchInputs records) := by
  cases records with
  | nil => exact .nil
  | cons first rest =>
    show ((first :: rest).map (watchInput first.time)).Pairwise _
    rw [List.pairwise_map]
    apply h.sorted.imp_of_mem
    intro a b ha hb hle
    exact readingAt_le ((Instant.linear_le_linear (h.ordinary a ha) (h.ordinary b hb)).2 hle)

end Record

variable [Scalar α]

namespace DefrostWatch

/-- A fresh watch that has been shown records. -/
def shown (s : DefrostSettings α) (records : List (Record α)) : DefrostWatch :=
  after s (Record.watchInputs records)

theorem phase_take_eq_defrost_iff (s : DefrostSettings α) (w : DefrostWatch) (i : WatchInput α) :
    (take s w i).phase = .defrost ↔ i.defrosting = true := by
  unfold take observe
  cases hphase : w.phase with
  | normal => cases i.defrosting <;> simp [hphase]
  | defrost => cases i.defrosting <;> simp [hphase]
  | recovery =>
    dsimp only
    unfold recover
    cases i.defrosting with
    | true => simp
    | false =>
      -- without a defrost, recovery goes on or is over
      rw [if_neg (by decide)]
      split
      · simp
      · split
        · split
          · split <;> simp [hphase]
          · simp [hphase]
        · simp [hphase]

/-- After a record that is not defrosting a watch is normal exactly if it is not in
recovery. -/
theorem reliable_shown_concat_iff {s : DefrostSettings α} (hr : 1 ≤ s.stableReadingsRequired)
    {now : Instant} {done : List (Record α)} {r : Record α}
    (hfollows : Record.Follows now (done ++ [r])) (hquiet : r.reading.defrosting = false) :
    (shown s (done ++ [r])).reliable = true
      ↔ ¬ InRecovery s (Record.watchInputs (done ++ [r])) := by
  have hdefrost : (shown s (done ++ [r])).phase ≠ .defrost := by
    obtain ⟨inputs, i, hinputs, hi⟩ := Record.watchInputs_concat done r
    unfold shown
    rw [hinputs, after_concat, ne_eq, phase_take_eq_defrost_iff, hi, hquiet]
    decide
  rw [← phase_eq_recovery_iff hr hfollows.watchInputs_inOrder]
  show decide ((shown s (done ++ [r])).phase = .normal) = true
    ↔ ¬ (shown s (done ++ [r])).phase = .recovery
  rw [decide_eq_true_eq]
  cases hphase : (shown s (done ++ [r])).phase with
  | normal => simp
  | defrost => exact absurd hphase hdefrost
  | recovery => simp

end DefrostWatch

namespace CopSensor

/-! ## §2. The records that samples come from. -/

/-- A sample is taken at the time of its record, and from none that is defrosting. -/
theorem of_recordedSample? {c : CopSensor α} {last : Option Instant} {r : Record α}
    {m : Sample α} (h : c.recordedSample? last r = some m) :
    m.time = r.time ∧ r.reading.defrosting = false := by
  unfold recordedSample? at h
  split at h
  next => exact absurd h (by simp)
  next hgate =>
    obtain ⟨p, -, rfl⟩ := Option.map_eq_some_iff.1 h
    simp only [Bool.or_eq_true, not_or] at hgate
    exact ⟨rfl, Bool.eq_false_iff.2 hgate.1.1.1⟩

theorem times_recordedSamples_sublist (c : CopSensor α) (last : Option Instant)
    (records : List (Record α)) :
    ((c.recordedSamples last records).map Sample.time).Sublist (records.map Record.time) := by
  induction records generalizing last with
  | nil => exact List.Sublist.slnil
  | cons r rest ih =>
    rw [recordedSamples_cons, List.map_append, List.map_cons]
    cases hsample : c.recordedSample? last r with
    | none => exact (ih _).cons _
    | some m =>
      rw [Option.toList_some, List.map_singleton, (of_recordedSample? hsample).1]
      exact (ih _).cons_cons _

theorem exists_record_of_mem {c : CopSensor α} {last : Option Instant}
    {records : List (Record α)} {m : Sample α} (h : m ∈ c.recordedSamples last records) :
    ∃ r ∈ records, m.time = r.time ∧ r.reading.defrosting = false := by
  induction records generalizing last with
  | nil => simp [recordedSamples] at h
  | cons r rest ih =>
    rw [recordedSamples_cons, List.mem_append, Option.mem_toList] at h
    rcases h with hfirst | hrest
    · exact ⟨r, List.mem_cons_self, of_recordedSample? hfirst⟩
    · obtain ⟨x, hx, hsample⟩ := ih hrest
      exact ⟨x, List.mem_cons_of_mem r hx, hsample⟩

/-- No merged record at the time of a sample is defrosting. -/
theorem quiet_of_sampled {c : CopSensor α} {last : Option Instant} {channels : Channels α}
    {m : Sample α} (hm : m ∈ c.recordedSamples last channels.records) {r : Record α}
    (hr : r ∈ channels.records) (htime : m.time = r.time) : r.reading.defrosting = false := by
  obtain ⟨x, hx, hxtime, hxquiet⟩ := exists_record_of_mem hm
  have hnodup : (channels.records.map Record.time).Nodup := by
    rw [List.Nodup, List.pairwise_map]
    exact channels.records_strict.imp ne_of_lt
  -- the sample was taken from this record, since no other one has its time
  have hsame : x = r := List.inj_on_of_nodup_map hnodup hx hr (hxtime.symm.trans htime)
  rw [← hsame]
  exact hxquiet

section

variable {channels : Channels α} (hordinary : ∀ t ∈ channels.instants, t.isLeap = false)

include hordinary in
theorem recordedSamples_chronological (c : CopSensor α) (last : Option Instant) :
    Chronological (c.recordedSamples last channels.records) := by
  refine ⟨?_, ?_⟩
  · intro m hm
    obtain ⟨r, hr, htime, -⟩ := exists_record_of_mem hm
    rw [htime]
    exact Channels.records_ordinary hordinary r hr
  · rw [← List.pairwise_map]
    apply List.Pairwise.sublist (times_recordedSamples_sublist c last channels.records)
    rw [List.pairwise_map]
    exact channels.records_sorted

include hordinary in
/-- **A filled window holds what capacity and retention leave of the recorded samples.** -/
theorem toList_window_backfill {s : Settings α} (hs : s.fault? = none) (mode : Option Mode)
    (clock : Clock) :
    ((fresh s mode).backfill channels clock).1.window.samples.toList
      = retained s.cop.retention
        (((fresh s mode).recordedSamples none channels.records).rtake s.cop.maxMeasurements) := by
  have hload := (Window.holds_ofSettings s.cop).load
    (Int.le_of_lt (Settings.retention_pos hs))
    (recordedSamples_chronological hordinary (fresh s mode) none)
  rw [window_backfill]
  show ((Window.ofSettings s.cop).load _).samples.toList = _
  rw [hload.toList, Window.settings_load]
  rfl

end

/-! ## §3. Samples of a recovery. -/

/-- No sample was taken at a record after which a watch of the records is not normal. -/
def RespectsDefrost (s : DefrostSettings α) (records : List (Record α))
    (samples : List (Sample α)) : Prop :=
  ∀ m ∈ samples, ∀ done r, done ++ [r] <+: records → m.time = r.time →
    (DefrostWatch.shown s (done ++ [r])).reliable = true

theorem not_respectsDefrost {s : DefrostSettings α} {records : List (Record α)}
    {samples : List (Sample α)}
    (h : ∃ m ∈ samples, ∃ done r, done ++ [r] <+: records ∧ m.time = r.time
      ∧ (DefrostWatch.shown s (done ++ [r])).reliable = false) :
    ¬ RespectsDefrost s records samples := by
  obtain ⟨m, hm, done, r, hdone, htime, hunreliable⟩ := h
  intro hrespects
  have hreliable := hrespects m hm done r hdone htime
  rw [hunreliable] at hreliable
  exact absurd hreliable (by decide)

/-- After the record of a sample a watch is normal exactly if it is not in recovery. -/
theorem reliable_shown_iff_of_sampled {s : Settings α} (hs : s.fault? = none)
    {channels : Channels α} (hordinary : ∀ t ∈ channels.instants, t.isLeap = false)
    {c : CopSensor α} {last : Option Instant} {m : Sample α}
    (hm : m ∈ c.recordedSamples last channels.records) {done : List (Record α)} {r : Record α}
    (hdone : done ++ [r] <+: channels.records) (htime : m.time = r.time) :
    (DefrostWatch.shown s.defrost (done ++ [r])).reliable = true
      ↔ ¬ DefrostWatch.InRecovery s.defrost (Record.watchInputs (done ++ [r])) := by
  have hr : r ∈ channels.records := hdone.mem (by simp)
  cases hfirst : channels.records.head? with
  | none =>
    rw [List.head?_eq_none_iff] at hfirst
    rw [hfirst] at hr
    simp at hr
  | some first =>
    have hfollows := (Channels.records_follow hordinary hfirst).of_isPrefix hdone
    exact DefrostWatch.reliable_shown_concat_iff (Settings.stableReadingsRequired_pos hs)
      hfollows (quiet_of_sampled hm hr htime)

/-- **When a backfill respects defrost cycles**: exactly if none of the samples that it
retains was taken in a recovery. -/
theorem backfill_respects_defrost_iff {s : Settings α} (hs : s.fault? = none)
    (mode : Option Mode) {channels : Channels α}
    (hordinary : ∀ t ∈ channels.instants, t.isLeap = false) (clock : Clock) :
    RespectsDefrost s.defrost channels.records
        ((fresh s mode).backfill channels clock).1.window.samples.toList
      ↔ ∀ m ∈ retained s.cop.retention
            (((fresh s mode).recordedSamples none channels.records).rtake s.cop.maxMeasurements),
          ∀ done r, done ++ [r] <+: channels.records → m.time = r.time →
            ¬ DefrostWatch.InRecovery s.defrost (Record.watchInputs (done ++ [r])) := by
  rw [toList_window_backfill hordinary hs]
  have hsampled : ∀ m ∈ retained s.cop.retention
      (((fresh s mode).recordedSamples none channels.records).rtake s.cop.maxMeasurements),
      m ∈ (fresh s mode).recordedSamples none channels.records := by
    intro m hm
    exact (rtake_suffix _ _).mem ((retained_suffix _ _).mem hm)
  constructor
  · intro hrespects m hm done r hdone htime
    rw [← reliable_shown_iff_of_sampled hs hordinary (hsampled m hm) hdone htime]
    exact hrespects m hm done r hdone htime
  · intro hnone m hm done r hdone htime
    rw [reliable_shown_iff_of_sampled hs hordinary (hsampled m hm) hdone htime]
    exact hnone m hm done r hdone htime

/-! ## §4. A unit that is seen while it recovers. -/

/-- A unit that heats and has defrosted between its first and its last record. -/
def recoveringChannels : Channels Float where
  inlet := [(.ofFirstDay 0, 30)]
  outlet := [(.ofFirstDay 0, 35)]
  flow := [(.ofFirstDay 0, 1)]
  current := [(.ofFirstDay 0, 5)]
  frequency := [(.ofFirstDay 0, 50)]
  defrost := [(.ofFirstDay 0, false), (.ofFirstDay 60, true), (.ofFirstDay 120, false)]

/-- What the recovering unit shows at a second of its first day. -/
def recoveringRecord (second : Nat) (defrost : Bool) : Record Float where
  time := .ofFirstDay second
  reading :=
    { inlet := some 30
      outlet := some 35
      flow := some 1
      current := some 5
      frequency := some 50
      defrost := some defrost }

theorem recoveringChannels_records :
    recoveringChannels.records
      = [recoveringRecord 0 false, recoveringRecord 60 true, recoveringRecord 120 false] := by
  cbv

theorem recoveringChannels_ordinary :
    ∀ t ∈ recoveringChannels.instants, t.isLeap = false := by
  have hinstants : recoveringChannels.instants
      = [.ofFirstDay 0, .ofFirstDay 60, .ofFirstDay 120] := by cbv
  rw [hinstants]
  decide

/-- A backfill of the recovering unit holds a sample of its last record, after which a
watch is not normal. -/
theorem recoveringChannels_sampled :
    ∃ m ∈ ((fresh .standard none).backfill recoveringChannels
        (.startingAt (.ofFirstDay 180))).1.window.samples.toList,
      ∃ done r, done ++ [r] <+: recoveringChannels.records ∧ m.time = r.time
        ∧ (DefrostWatch.shown Settings.standard.defrost (done ++ [r])).reliable = false := by
  rw [toList_window_backfill recoveringChannels_ordinary (by decide), recoveringChannels_records]
  have hsampled : ∃ m ∈ retained (Settings.standard (α := Float)).cop.retention
      (((fresh .standard none).recordedSamples none
        [recoveringRecord 0 false, recoveringRecord 60 true, recoveringRecord 120 false]).rtake
        (Settings.standard (α := Float)).cop.maxMeasurements),
      m.time = .ofFirstDay 120 := by decide +kernel
  obtain ⟨m, hm, htime⟩ := hsampled
  refine ⟨m, hm, [recoveringRecord 0 false, recoveringRecord 60 true], recoveringRecord 120 false,
    List.prefix_rfl, htime, ?_⟩
  decide +kernel

/-- **A backfill can sample a recovery.** -/
theorem backfill_samples_recovery :
    ¬ RespectsDefrost Settings.standard.defrost recoveringChannels.records
      ((fresh .standard none).backfill recoveringChannels
        (.startingAt (.ofFirstDay 180))).1.window.samples.toList :=
  not_respectsDefrost recoveringChannels_sampled

/-- The last record of the recovering unit is in recovery, and is sampled. -/
theorem backfill_of_recoveringChannels :
    ¬ ∀ m ∈ retained (Settings.standard (α := Float)).cop.retention
          (((fresh .standard none).recordedSamples none recoveringChannels.records).rtake
            (Settings.standard (α := Float)).cop.maxMeasurements),
        ∀ done r, done ++ [r] <+: recoveringChannels.records → m.time = r.time →
          ¬ DefrostWatch.InRecovery Settings.standard.defrost
            (Record.watchInputs (done ++ [r])) := by
  intro hnone
  have hrespects := (backfill_respects_defrost_iff (by decide) none recoveringChannels_ordinary
    (.startingAt (.ofFirstDay 180))).2 hnone
  exact not_respectsDefrost recoveringChannels_sampled hrespects

end CopSensor

end HeatMeter
