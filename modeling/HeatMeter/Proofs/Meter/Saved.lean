/-
  HeatMeter.Proofs.Meter.Saved
  ────────────────────────────
  **THE COUNTERS THAT A RUN SAVES ARE READ BACK UNLESS ONE OF THEM HAS OVERFLOWED.**

  A run begins with no counters or with those of a file, which are finite.  From then
  on every counter is one that may be added to: it is no NaN and not below every
  float, but a sum may leave the range of floats.  So of the four counters that are
  saved each is a number, or the infinity, which makes the file unreadable:

      sound_run                  the counters of a run, by one update and induction
      saved_counters_kept_iff    the file of a run is read back, unless one overflowed
      overflowed_run_refused     a run that succeeds and leaves such a file behind
-/
import HeatMeter.Proofs.Data.Snapshot
import HeatMeter.Proofs.Meter.Frozen

namespace HeatMeter

open FloatLaws (Addable)

/-! ## §1. The counters of a run. -/

namespace HeatCounter

variable {c : HeatCounter Float}

/-- The powers remembered are not below zero, and all counters may be added to. -/
structure Sound (c : HeatCounter Float) : Prop where
  steady : c.Steady
  daily : ∀ k, Addable (c.daily.get k)

/-- **One update keeps the counters sound.** -/
theorem Sound.take (h : c.Sound) (i : HeatInput Float) : (c.take i).Sound := by
  refine ⟨h.steady.take i, ?_⟩
  intro k
  obtain ⟨es, hes, -, hsame | hnew⟩ := take_adds h.steady.power i k
  · rw [hsame]
    exact (h.daily k).sum hes
  · rw [hnew]
    exact (FloatLaws.addable_of_nonneg FloatLaws.nonneg_zero).sum hes

theorem sound_beginning {kept : Option (EnergySnapshot Float)} (h : ∀ s ∈ kept, s.Finite)
    (start : Instant) : (beginning kept start).Sound := by
  refine ⟨steady_beginning h start, ?_⟩
  intro k
  cases kept with
  | none =>
    show Addable ((ByKind.both (0 : Float)).get k)
    rw [ByKind.get_both]
    exact FloatLaws.addable_of_nonneg FloatLaws.nonneg_zero
  | some s =>
    have hfinite := h s rfl
    cases k with
    | heating => exact FloatLaws.addable_of_isFinite hfinite.dailyHeating
    | cooling => exact FloatLaws.addable_of_isFinite hfinite.dailyCooling

end HeatCounter

/-- A counter of a snapshot is an infinity. -/
def EnergySnapshot.Overflowed (s : EnergySnapshot Float) : Prop :=
  s.dailyHeating.isInf = true ∨ s.totalHeating.isInf = true
    ∨ s.dailyCooling.isInf = true ∨ s.totalCooling.isInf = true

/-- **Sound counters are finite unless one has overflowed.** -/
theorem HeatCounter.Sound.finite_iff {c : HeatCounter Float} (h : c.Sound) :
    c.snapshot.Finite ↔ ¬ c.snapshot.Overflowed := by
  have hdh := (h.daily .heating).isFinite_iff
  have hdc := (h.daily .cooling).isFinite_iff
  have hth := (h.steady.total .heating).isFinite_iff
  have htc := (h.steady.total .cooling).isFinite_iff
  unfold EnergySnapshot.Overflowed
  rw [not_or, not_or, not_or, Bool.not_eq_true, Bool.not_eq_true, Bool.not_eq_true,
    Bool.not_eq_true]
  constructor
  · intro hfinite
    exact ⟨hdh.1 hfinite.dailyHeating, hth.1 hfinite.totalHeating,
      hdc.1 hfinite.dailyCooling, htc.1 hfinite.totalCooling⟩
  · rintro ⟨h₁, h₂, h₃, h₄⟩
    exact ⟨hdh.2 h₁, hth.2 h₂, hdc.2 h₃, htc.2 h₄⟩

namespace Replay

/-- What every update of the heat counter keeps, every run keeps. -/
theorem heat_run {α : Type} [Scalar α] {P : HeatCounter α → Prop}
    (hstep : ∀ c i, P c → P (c.take i)) {p : Replay α} (h : P p.meter.heat)
    (records : List (Record α)) : P (p.run records).meter.heat := by
  induction records generalizing p with
  | nil => exact h
  | cons r rest ih =>
    -- a record sets the clock and is then metered
    have hset := heat_take hstep h (.set r.time)
    exact ih (heat_take hstep hset (.poll r.reading))

/-- **The counters of a run are sound**, from any counters that were kept. -/
theorem sound_run (s : Settings Float) {kept : Option (EnergySnapshot Float)}
    (hkept : ∀ s ∈ kept, s.Finite) (start : Instant) (records : List (Record Float)) :
    ((startingAt s kept start).run records).meter.heat.Sound := by
  refine heat_run (P := HeatCounter.Sound) (fun _ i hc => hc.take i) ?_ records
  have hopening : (startingAt s kept start).meter.heat = HeatCounter.beginning kept start :=
    heat_opening s kept (.startingAt start)
  rw [hopening]
  exact HeatCounter.sound_beginning hkept start

end Replay

/-! ## §2. The file of a run. -/

namespace Program

variable {d written : Disk} {path : String}

/-- **The counters that a run saves are read back exactly if none has overflowed**;
otherwise the file is refused. -/
theorem saved_counters_kept_iff (s : Settings Float) {before : Disk} {source : String}
    {kept : Option (EnergySnapshot Float)} (hkept : snapshot before source = .ok kept)
    (start : Instant) (records : List (Record Float))
    (hsave : writeSnapshot d path
      ((Replay.startingAt s kept start).run records).meter.snapshot = .ok written) :
    (snapshot written path
        = .ok (some ((Replay.startingAt s kept start).run records).meter.snapshot)
      ↔ ¬ ((Replay.startingAt s kept start).run records).meter.snapshot.Overflowed)
    ∧ (((Replay.startingAt s kept start).run records).meter.snapshot.Overflowed →
      snapshot written path = .error .snapshot) := by
  have hsound := Replay.sound_run s (finite_of_snapshot hkept) start records
  generalize ((Replay.startingAt s kept start).run records).meter = m at hsave hsound ⊢
  have hfinite : m.snapshot.Finite ↔ ¬ m.snapshot.Overflowed := hsound.finite_iff
  have hrefused (h : m.snapshot.Overflowed) : snapshot written path = .error .snapshot :=
    snapshot_of_write_of_not_finite hsave fun hs => hfinite.1 hs h
  refine ⟨⟨?_, fun h => snapshot_of_write_of_finite hsave (hfinite.2 h)⟩, hrefused⟩
  intro hread hover
  rw [hrefused hover] at hread
  cases hread

/-- A disk with the file of a snapshot and no other. -/
def holding (s : EnergySnapshot Float) : Disk :=
  ⟨[(["energy.json"], Text.Utf8.encode (snapshotText s))], []⟩

theorem writeSnapshot_holding (old new : EnergySnapshot Float) :
    writeSnapshot (holding old) "energy.json" new = .ok (holding new) :=
  rfl

/-- A minute of a steady unit. -/
def steadyMinute : List (Record Float) :=
  [⟨.ofFirstDay 0, CopSensor.steadyReading 50⟩, ⟨.ofFirstDay 60, CopSensor.steadyReading 50⟩]

/-- A minute of a steady unit goes on from the file of 5 kWh and is kept in its place. -/
theorem saved_counters_kept_of_steadyMinute :
    snapshot (holding ⟨5, 5, 0, 0, none⟩) "energy.json" = .ok (some ⟨5, 5, 0, 0, none⟩)
      ∧ writeSnapshot (holding ⟨5, 5, 0, 0, none⟩) "energy.json"
          ((Replay.startingAt .standard (some ⟨5, 5, 0, 0, none⟩) (.ofFirstDay 0)).run
            steadyMinute).meter.snapshot
        = .ok (holding ((Replay.startingAt .standard (some ⟨5, 5, 0, 0, none⟩)
          (.ofFirstDay 0)).run steadyMinute).meter.snapshot)
      ∧ snapshot (holding ((Replay.startingAt .standard (some ⟨5, 5, 0, 0, none⟩)
          (.ofFirstDay 0)).run steadyMinute).meter.snapshot) "energy.json"
        = .ok (some ((Replay.startingAt .standard (some ⟨5, 5, 0, 0, none⟩)
          (.ofFirstDay 0)).run steadyMinute).meter.snapshot) := by
  have hkept : snapshot (holding ⟨5, 5, 0, 0, none⟩) "energy.json"
      = .ok (some ⟨5, 5, 0, 0, none⟩) :=
    snapshot_of_write_of_finite (writeSnapshot_holding .zero _)
      ⟨by decide, by decide, by decide, by decide⟩
  have hsave := writeSnapshot_holding ⟨5, 5, 0, 0, none⟩
    ((Replay.startingAt .standard (some ⟨5, 5, 0, 0, none⟩) (.ofFirstDay 0)).run
      steadyMinute).meter.snapshot
  refine ⟨hkept, hsave, (saved_counters_kept_iff .standard hkept (.ofFirstDay 0) steadyMinute
    hsave).1.2 ?_⟩
  unfold EnergySnapshot.Overflowed
  decide +kernel

/-! ## §3. A run that leaves an unreadable file. -/

/-- The environment of a run that keeps the counters of a log. -/
def keeping : Configuration.Environment :=
  [("heatpump__replay__input", "log.jsonl"), ("heatpump__replay__snapshot", "energy.json")]

theorem values_keeping : keeping.values
    = [("replay.input".toList, .text "log.jsonl".toList),
      ("replay.snapshot".toList, .text "energy.json".toList)] :=
  rfl

theorem table?_keeping : Configuration.table? none keeping
    = some [("replay", .table [("input", .text "log.jsonl".toList),
      ("snapshot", .text "energy.json".toList)])] := by
  have hinput : Configuration.Path.ofKey "replay.input".toList = ⟨"replay", [.entry "input"]⟩ := by
    decide +kernel
  have hsnapshot : Configuration.Path.ofKey "replay.snapshot".toList
      = ⟨"replay", [.entry "snapshot"]⟩ := by
    decide +kernel
  unfold Configuration.table?
  rw [values_keeping]
  simp only [Configuration.layAll, List.map_nil, List.foldl_nil, List.foldl_cons,
    Option.map_some, hinput, hsnapshot]
  rfl

/-- Without a file of its own a run is configured by the environment. -/
theorem configuration_keeping {fault : DiskFault} (h : d.read configurationPath = .error fault) :
    configuration d keeping = .ok ⟨.standard, "log.jsonl", some "energy.json"⟩ := by
  have htable : Configuration.ofTable? [("replay", .table [("input", .text "log.jsonl".toList),
      ("snapshot", .text "energy.json".toList)])]
        = some ⟨.standard, "log.jsonl", some "energy.json"⟩ := rfl
  have hfault : (Settings.standard : Settings Float).fault? = none := by decide +kernel
  have hnone : (Except.error fault : Except DiskFault Text.Utf8.Bytes).toOption = none := rfl
  unfold configuration Configuration.load
  rw [h, hnone, table?_keeping, Option.bind_some, htable]
  dsimp only
  rw [hfault]

section

open Text.Utf8 (Bytes)

/-- A disk with a log, and perhaps with the file of a snapshot. -/
def beside (log : Bytes) (kept : Option Bytes) : Disk :=
  ⟨(["log.jsonl"], log) :: (kept.map fun bytes => (["energy.json"], bytes)).toList, []⟩

theorem read_configuration_beside (log : Bytes) (kept : Option Bytes) :
    (beside log kept).read configurationPath = .error .notFound := by
  cases kept <;> rfl

theorem read_beside (log : Bytes) (kept : Option Bytes) :
    (beside log kept).read "log.jsonl" = .ok log := by
  cases kept <;> rfl

theorem writeSnapshot_beside (log : Bytes) (kept : Option Bytes) (s : EnergySnapshot Float) :
    writeSnapshot (beside log kept) "energy.json" s
      = .ok (beside log (some (Text.Utf8.encode (snapshotText s)))) := by
  cases kept <;> rfl

variable {log : Bytes} {first : Record Float} {rest : List (Record Float)}

/-- A run on this disk meters the log, from the counters kept. -/
theorem metered_beside (hlog : Log.read? log = some (first :: rest)) (kept : Option Bytes) :
    metered ⟨.standard, "log.jsonl", some "energy.json"⟩ (beside log kept)
      = (snapshot (beside log kept) "energy.json").map fun counters =>
        ((Replay.startingAt .standard counters first.time).run (first :: rest)).meter := by
  have hrecords : records (beside log kept) "log.jsonl" = .ok (first :: rest) := by
    unfold records
    rw [read_beside]
    dsimp only
    rw [hlog]
  unfold metered
  rw [hrecords]
  show (snapshot (beside log kept) "energy.json").bind _ = _
  cases snapshot (beside log kept) "energy.json" with
  | error failure => rfl
  | ok counters => rfl

/-- The first run on a log ends well and leaves the file of its counters. -/
theorem run_beside_none (hlog : Log.read? log = some (first :: rest)) {m : Meter Float}
    (hm : ((Replay.startingAt .standard none first.time).run (first :: rest)).meter = m) :
    run (beside log none) keeping = ⟨summaryText m, none,
      beside log (some (Text.Utf8.encode (snapshotText m.snapshot)))⟩ := by
  have hnone : snapshot (beside log none) "energy.json" = .ok none := rfl
  have hmetered := metered_beside hlog none
  rw [hnone, Except.map, hm] at hmetered
  unfold run
  rw [configuration_keeping (read_configuration_beside log none)]
  dsimp only
  rw [hmetered]
  dsimp only [finish]
  rw [writeSnapshot_beside]

/-- **A run that ends with a counter that is not finite stops the next one.** -/
theorem next_run_refused (hlog : Log.read? log = some (first :: rest)) {m : Meter Float}
    (hm : ((Replay.startingAt .standard none first.time).run (first :: rest)).meter = m)
    (hfinite : ¬ m.snapshot.Finite) :
    (run (beside log none) keeping).failure = none
      ∧ snapshot (run (beside log none) keeping).disk "energy.json" = .error .snapshot
      ∧ (run (run (beside log none) keeping).disk keeping).failure = some .snapshot := by
  have hrefused : snapshot (beside log (some (Text.Utf8.encode (snapshotText m.snapshot))))
      "energy.json" = .error .snapshot :=
    snapshot_of_write_of_not_finite (writeSnapshot_beside log none m.snapshot) hfinite
  -- the second run reads the log, and then the file that the first one left
  have hmetered := metered_beside hlog (some (Text.Utf8.encode (snapshotText m.snapshot)))
  rw [hrefused, Except.map] at hmetered
  rw [run_beside_none hlog hm]
  refine ⟨rfl, hrefused, ?_⟩
  unfold run
  rw [configuration_keeping (read_configuration_beside log _)]
  dsimp only
  rw [hmetered]

end

/-- A unit whose water is far too hot and flows far too fast. -/
def overflowing : Reading Float where
  inlet := some 0
  outlet := some 1e200
  flow := some 1e200
  frequency := some 50

/-- A minute of such a unit. -/
def overflowingMinute : List (Record Float) :=
  [⟨.ofFirstDay 0, overflowing⟩, ⟨.ofFirstDay 60, overflowing⟩]

/-- The log of that minute, a record a line. -/
def overflowingLog : String :=
  String.ofList (overflowingMinute.flatMap fun r => r.toJson.compact ++ ['\n'])

theorem read?_overflowingLog :
    Log.read? (Text.Utf8.encode overflowingLog) = some overflowingMinute := by
  have hlines : (Log.lines (overflowingMinute.flatMap fun r => r.toJson.compact ++ ['\n'])).filterMap
      Log.record? = overflowingMinute := by
    decide +kernel
  have hsorted : overflowingMinute.Pairwise fun a b => a.time ≤ b.time := by decide
  rw [Log.read?, Text.Utf8.text?_encode, Option.map_some, overflowingLog, String.toList_ofList,
    Log.records, hlines, Record.inOrder, Instant.mergeSort_of_sorted hsorted]

theorem not_finite_overflowingMinute : ¬ ((Replay.startingAt .standard none
    (.ofFirstDay 0)).run overflowingMinute).meter.snapshot.Finite := by
  intro h
  have hinfinite : ((Replay.startingAt .standard none (.ofFirstDay 0)).run
      overflowingMinute).meter.snapshot.totalHeating.isFinite = false := by
    decide +kernel
  rw [h.totalHeating] at hinfinite
  cases hinfinite

/-- **A run on a log of finite numbers ends well and saves counters that cannot be read
back**, so that the next one fails. -/
theorem overflowed_run_refused :
    (run (beside (Text.Utf8.encode overflowingLog) none) keeping).failure = none
      ∧ snapshot (run (beside (Text.Utf8.encode overflowingLog) none) keeping).disk "energy.json"
        = .error .snapshot
      ∧ (run (run (beside (Text.Utf8.encode overflowingLog) none) keeping).disk keeping).failure
        = some .snapshot :=
  next_run_refused read?_overflowingLog rfl not_finite_overflowingMinute

end Program

end HeatMeter
