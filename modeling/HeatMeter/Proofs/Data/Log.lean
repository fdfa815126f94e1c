/-
  HeatMeter.Proofs.Data.Log
  ─────────────────────────
  **THE ORDER OF THE LINES OF A LOG DOES NOT MATTER.**

  The records of a log are sorted, and where no two are of one instant there is only
  one sorted list of them.  A line without a record adds nothing to it.  From there on
  two runs are the same run: on disks that differ in the log alone they read the same
  snapshot, meter the same records and write the same file.

      records_of_perm    one list of records for logs with the same lines of records
      alike_finish       meters that are the same end alike on such disks
      run_of_perm        and so do the runs
-/
import HeatMeter.Proofs.Disk
import HeatMeter.Proofs.Meter.Saved
import HeatMeter.Proofs.Time.Instant

namespace HeatMeter

open Text
open Text.Utf8 (Bytes)

/-! ## §1. Records at different instants. -/

namespace Record

variable {α : Type} {records others : List (Record α)}

/-- Records that are sorted by instant are sorted strictly if no two are of one instant. -/
theorem inOrder_strict (hdistinct : (records.map time).Nodup) :
    (inOrder records).Pairwise fun a b => a.time < b.time :=
  Instant.strict_mergeSort hdistinct

/-- **Records at different instants come in one order**, whatever the order they are
given in. -/
theorem inOrder_of_perm (hperm : records.Perm others) (hdistinct : (records.map time).Nodup) :
    inOrder records = inOrder others :=
  Instant.mergeSort_of_perm hperm hdistinct

end Record

/-! ## §2. Logs with the same lines of records. -/

namespace Log

variable {text other : List Char}

/-- The lines of a text that hold a record. -/
def recordLines (text : List Char) : List (List Char) :=
  (lines text).filter fun line => (record? line).isSome

/-- The records of a text, in the order of its lines. -/
def recordsAsRead (text : List Char) : List (Record Float) :=
  (recordLines text).filterMap record?

/-- A line that holds no record leaves no trace. -/
theorem recordsAsRead_eq (text : List Char) :
    recordsAsRead text = (lines text).filterMap record? := by
  unfold recordsAsRead recordLines
  rw [List.filterMap_filter]
  congr 1
  funext line
  cases record? line <;> rfl

theorem records_eq (text : List Char) : records text = Record.inOrder (recordsAsRead text) := by
  rw [records, recordsAsRead_eq]

/-- **Logs with the same lines of records, in any order, have the same records.** -/
theorem records_of_perm (hlines : (recordLines text).Perm (recordLines other))
    (hdistinct : ((recordsAsRead text).map Record.time).Nodup) :
    records text = records other := by
  rw [records_eq, records_eq]
  exact Record.inOrder_of_perm (hlines.filterMap record?) hdistinct

end Log

/-! ## §3. Runs on disks that differ in the log. -/

namespace Program

variable {d e : Disk} {l : Location} {path : String} {c : Configuration}

theorem records_of_read {content : Bytes} {text : List Char} (hread : d.read path = .ok content)
    (htext : Utf8.text? content = some text) : records d path = .ok (Log.records text) := by
  unfold records
  rw [hread]
  dsimp only
  rw [Log.read?, htext, Option.map_some]

theorem snapshot_of_sameBut (h : d.SameBut l e) (hpath : d.locate path ≠ .ok l) :
    snapshot d path = snapshot e path := by
  unfold snapshot
  rw [h.contains path, h.read hpath]

/-- The same records are metered from the same snapshot. -/
theorem metered_of_sameBut (h : d.SameBut l e) (hpath : ∀ p ∈ c.snapshot, d.locate p ≠ .ok l)
    (hrecords : records d c.input = records e c.input) : metered c d = metered c e := by
  unfold metered
  rw [hrecords]
  cases hkept : c.snapshot with
  | none => rfl
  | some p =>
    dsimp only
    rw [snapshot_of_sameBut h (hpath p hkept)]

/-- A snapshot is kept on neither disk, for the same reason, or on both. -/
theorem writeSnapshot_of_sameBut (h : d.SameBut l e) (path : String) (s : EnergySnapshot Float) :
    (∃ failure, writeSnapshot d path s = .error failure ∧ writeSnapshot e path s = .error failure)
      ∨ ∃ d' e', writeSnapshot d path s = .ok d' ∧ writeSnapshot e path s = .ok e'
        ∧ d'.SameBut l e' ∧ d'.read path = e'.read path := by
  unfold writeSnapshot
  rcases h.write path (Utf8.encode (snapshotText s)) with ⟨fault, hd, he⟩ | ⟨d', e', hd, he, hsame⟩
  · rw [hd, he]
    exact .inl ⟨.disk fault, rfl, rfl⟩
  · rw [hd, he]
    refine .inr ⟨d', e', rfl, rfl, hsame, ?_⟩
    rw [Disk.read_write hd, Disk.read_write he]

/-- Two runs that end alike: they print the same, succeed or fail alike, and leave disks
that differ at `l` alone, with the same file of counters. -/
structure Outcome.Alike (l : Location) (c : Configuration) (o o' : Outcome) : Prop where
  printed : o.printed = o'.printed
  failure : o.failure = o'.failure
  disk : o.disk.SameBut l o'.disk
  saved : ∀ p ∈ c.snapshot, o.disk.read p = o'.disk.read p

/-- Runs that leave their disks as they were end alike if they print and fail alike. -/
theorem alike_unchanged (h : d.SameBut l e) (hpath : ∀ p ∈ c.snapshot, d.locate p ≠ .ok l)
    (printed : String) (failure : Option Failure) :
    Outcome.Alike l c ⟨printed, failure, d⟩ ⟨printed, failure, e⟩ :=
  ⟨rfl, rfl, h, fun p hp => h.read (hpath p hp)⟩

/-- **The same meter ends alike on disks that differ in a file the counters are not
kept in.** -/
theorem alike_finish (h : d.SameBut l e) (hpath : ∀ p ∈ c.snapshot, d.locate p ≠ .ok l)
    (m : Meter Float) : Outcome.Alike l c (finish c m d) (finish c m e) := by
  unfold finish
  cases hkept : c.snapshot with
  | none => exact alike_unchanged h hpath _ _
  | some p =>
    dsimp only
    rcases writeSnapshot_of_sameBut h p m.snapshot with
      ⟨failure, hd, he⟩ | ⟨d', e', hd, he, hsame, hsaved⟩
    · rw [hd, he]
      exact alike_unchanged h hpath _ _
    · rw [hd, he]
      refine ⟨rfl, rfl, hsame, ?_⟩
      intro q hq
      obtain rfl : p = q := Option.some.inj (hkept.symm.trans hq)
      exact hsaved

theorem alike_run {env : Configuration.Environment} (h : d.SameBut l e)
    (hpath : ∀ p ∈ c.snapshot, d.locate p ≠ .ok l)
    (hd : configuration d env = .ok c) (he : configuration e env = .ok c)
    (hrecords : records d c.input = records e c.input) :
    Outcome.Alike l c (run d env) (run e env) := by
  unfold run
  rw [hd, he]
  dsimp only
  rw [metered_of_sameBut h hpath hrecords]
  cases metered c e with
  | error failure => exact alike_unchanged h hpath _ _
  | ok m => exact alike_finish h hpath m

/-- **A run does not depend on the order of the lines of its log, or on lines without a
record.**  Two disks differ in the file at `l`, which is not where the counters are kept;
the logs on them hold the same lines of records, no two of one instant.  Then both runs
meter the same records, each record of a line once and in order of time, and end
alike. -/
theorem run_of_perm {env : Configuration.Environment} {content content' : Bytes}
    {text text' : List Char} (h : d.SameBut l e)
    (hpath : ∀ p ∈ c.snapshot, d.locate p ≠ .ok l)
    (hd : configuration d env = .ok c) (he : configuration e env = .ok c)
    (hread : d.read c.input = .ok content) (htext : Utf8.text? content = some text)
    (hread' : e.read c.input = .ok content') (htext' : Utf8.text? content' = some text')
    (hlines : (Log.recordLines text).Perm (Log.recordLines text'))
    (hdistinct : ((Log.recordsAsRead text).map Record.time).Nodup) :
    ∃ metered, records d c.input = .ok metered ∧ records e c.input = .ok metered
      ∧ metered.Pairwise (fun a b => a.time < b.time)
      ∧ metered.Perm (Log.recordsAsRead text)
      ∧ Outcome.Alike l c (run d env) (run e env) := by
  have hfirst := records_of_read hread htext
  have hsecond := records_of_read hread' htext'
  rw [← Log.records_of_perm hlines hdistinct] at hsecond
  refine ⟨Log.records text, hfirst, hsecond, ?_, ?_,
    alike_run h hpath hd he (hfirst.trans hsecond.symm)⟩
  · rw [Log.records_eq]
    exact Record.inOrder_strict hdistinct
  · rw [Log.records_eq]
    exact List.mergeSort_perm _ _

/-! ## §4. A log in the wrong order. -/

theorem sameBut_beside (log other : Bytes) (kept : Option Bytes) :
    (beside log kept).SameBut ["log.jsonl"] (beside other kept) := by
  refine ⟨?_, ?_, ?_⟩
  · intro k
    rfl
  · intro k
    cases hk : k == ["log.jsonl"] <;> simp [beside, Disk.content?, List.lookup_cons, hk]
  · intro k hk
    have hne : (k == ["log.jsonl"]) = false := beq_false_of_ne hk
    simp [beside, Disk.content?, List.lookup_cons, hne]

/-- The sensors of a unit that heats its water by five degrees. -/
def heatingReading (frequency : Float) : Reading Float :=
  { inlet := some 30, outlet := some 35, flow := some 1, frequency := some frequency }

/-- The compressor runs, and a minute later it rests while the water is still heated. -/
def heatingMinute : List (Record Float) :=
  [⟨.ofFirstDay 0, heatingReading 50⟩, ⟨.ofFirstDay 60, heatingReading 0⟩]

/-- The meter after that minute. -/
def meterOfHeatingMinute : Meter Float :=
  ((Replay.startingAt .standard none (.ofFirstDay 0)).run heatingMinute).meter

/-- The lines of both records. -/
def heatingLines : List (List Char) :=
  heatingMinute.map fun r => r.toJson.compact

/-- A log of both. -/
def tidyLog : String :=
  String.ofList (heatingLines.flatMap fun line => line ++ ['\n'])

/-- A log of both backwards, each after a blank line and a line without a record. -/
def untidyLog : String :=
  String.ofList (heatingLines.reverse.flatMap fun line =>
    "  \r\nno record\n".toList ++ line ++ ['\r', '\n'])

theorem recordLines_tidyLog : Log.recordLines tidyLog.toList = heatingLines := by
  unfold tidyLog
  simp only [String.toList_ofList]
  decide +kernel

theorem recordLines_untidyLog : Log.recordLines untidyLog.toList = heatingLines.reverse := by
  unfold untidyLog
  simp only [String.toList_ofList]
  decide +kernel

theorem recordsAsRead_tidyLog : Log.recordsAsRead tidyLog.toList = heatingMinute := by
  rw [Log.recordsAsRead, recordLines_tidyLog]
  decide +kernel

theorem read?_tidyLog : Log.read? (Utf8.encode tidyLog) = some heatingMinute := by
  have hsorted : heatingMinute.Pairwise fun a b => a.time ≤ b.time := by decide
  rw [Log.read?, Utf8.text?_encode, Option.map_some, Log.records_eq, recordsAsRead_tidyLog,
    Record.inOrder, Instant.mergeSort_of_sorted hsorted]

/-- Both runs succeed, print the summary of the same meter and save its counters, which are
those of a minute of heating. -/
theorem run_of_untidyLog :
    ((run (beside (Utf8.encode tidyLog) none) keeping).failure = none
        ∧ (run (beside (Utf8.encode tidyLog) none) keeping).printed
          = summaryText meterOfHeatingMinute
        ∧ (run (beside (Utf8.encode tidyLog) none) keeping).disk.read "energy.json"
          = .ok (Utf8.encode (snapshotText meterOfHeatingMinute.snapshot)))
      ∧ ((run (beside (Utf8.encode untidyLog) none) keeping).failure = none
        ∧ (run (beside (Utf8.encode untidyLog) none) keeping).printed
          = summaryText meterOfHeatingMinute
        ∧ (run (beside (Utf8.encode untidyLog) none) keeping).disk.read "energy.json"
          = .ok (Utf8.encode (snapshotText meterOfHeatingMinute.snapshot)))
      ∧ 0 < meterOfHeatingMinute.snapshot.totalHeating := by
  have hlines : (Log.recordLines tidyLog.toList).Perm
      (Log.recordLines untidyLog.toList) := by
    rw [recordLines_tidyLog, recordLines_untidyLog]
    exact (List.reverse_perm heatingLines).symm
  have hdistinct : ((Log.recordsAsRead tidyLog.toList).map Record.time).Nodup := by
    rw [recordsAsRead_tidyLog]
    decide
  have hpath : ∀ p ∈ some "energy.json",
      (beside (Utf8.encode tidyLog) none).locate p ≠ .ok ["log.jsonl"] := by
    rintro p ⟨⟩
    decide +kernel
  obtain ⟨metered, -, -, -, -, halike⟩ := run_of_perm
    (sameBut_beside (Utf8.encode tidyLog) (Utf8.encode untidyLog) none) hpath
    (configuration_keeping (read_configuration_beside _ none))
    (configuration_keeping (read_configuration_beside _ none))
    (read_beside _ none) (Utf8.text?_encode tidyLog)
    (read_beside _ none) (Utf8.text?_encode untidyLog) hlines hdistinct
  -- how the run on the tidy log ends is known, and the other one ends alike
  have htidy := run_beside_none read?_tidyLog (m := meterOfHeatingMinute) rfl
  have hsaved := halike.saved "energy.json" rfl
  rw [← halike.failure, ← halike.printed, ← hsaved, htidy]
  exact ⟨⟨rfl, rfl, rfl⟩, ⟨rfl, rfl, rfl⟩, by decide +kernel⟩

end Program

end HeatMeter
