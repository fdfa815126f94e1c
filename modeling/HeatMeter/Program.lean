/-
  HeatMeter.Program
  ─────────────────
  **A RUN FROM FILES TO SUMMARY AND SNAPSHOT.**

  A run reads its configuration, the log and the snapshot, in this order, meters
  the log, prints the summary and then writes the snapshot.  The first step that
  fails ends it.  The write comes last and is the only one, so a run that fails
  leaves the disk as it was.
-/
import HeatMeter.Configuration
import HeatMeter.Data.Log
import HeatMeter.Data.Snapshot
import HeatMeter.Data.Summary
import HeatMeter.Json.Printer
import HeatMeter.Replay

namespace HeatMeter.Program

open Text

/-- The path of the configuration file.  No other is looked for: a file of this name in another
format counts as none. -/
def configurationPath : String := "config/metrics.toml"

/-- The configuration on a disk; a file that cannot be read is as good as none. -/
def configuration (d : Disk) (env : Configuration.Environment) :
    Except Failure Configuration :=
  Configuration.load (d.read configurationPath).toOption env

/-- The records of a log on a disk. -/
def records (d : Disk) (path : String) : Except Failure (List (Record Float)) :=
  match d.read path with
  | .error fault => .error (.disk fault)
  | .ok content =>
    match Log.read? content with
    | some records => .ok records
    | none => .error .notText

/-- The snapshot on a disk, none where there is nothing at the path. -/
def snapshot (d : Disk) (path : String) : Except Failure (Option (EnergySnapshot Float)) :=
  if d.contains path then
    match (d.read path).toOption.bind Json.parseBytes |>.bind EnergySnapshot.ofJson? with
    | some kept => .ok (some kept)
    | none => .error .snapshot
  else .ok none

/-- The text of a snapshot. -/
def snapshotText (s : EnergySnapshot Float) : String :=
  String.ofList s.toJson.pretty

/-- The disk with a snapshot written to a path. -/
def writeSnapshot (d : Disk) (path : String) (s : EnergySnapshot Float) :
    Except Failure Disk :=
  match d.write path (Utf8.encode (snapshotText s)) with
  | .ok d => .ok d
  | .error fault => .error (.disk fault)

/-- The meter after the log. -/
def metered (c : Configuration) (d : Disk) : Except Failure (Meter Float) := do
  let records ← records d c.input
  match records with
  | [] => .error (.noRecords c.input)
  | first :: _ =>
    let kept ← match c.snapshot with
      | some path => snapshot d path
      | none => .ok none
    return ((Replay.startingAt c.settings kept first.time).run records).meter

/-- How a run ended. -/
structure Outcome where
  /-- What was printed. -/
  printed : String
  /-- Why it failed, if it did. -/
  failure : Option Failure
  /-- The disk afterwards. -/
  disk : Disk

/-- What a run prints of its meter. -/
def summaryText (m : Meter Float) : String :=
  String.ofList (m.summary.toJson.pretty ++ ['\n'])

/-- Print the summary of a meter and keep its counters. -/
def finish (c : Configuration) (m : Meter Float) (d : Disk) : Outcome :=
  match c.snapshot with
  | none => ⟨summaryText m, none, d⟩
  | some path =>
    match writeSnapshot d path m.snapshot with
    | .ok written => ⟨summaryText m, none, written⟩
    | .error failure => ⟨summaryText m, some failure, d⟩

/-- A run on a disk in an environment. -/
def run (d : Disk) (env : Configuration.Environment) : Outcome :=
  match configuration d env with
  | .error failure => ⟨"", some failure, d⟩
  | .ok c =>
    match metered c d with
    | .error failure => ⟨"", some failure, d⟩
    | .ok m => finish c m d

/-- The exit code of a run. -/
def Outcome.exitCode (o : Outcome) : UInt32 :=
  if o.failure.isSome then 1 else 0

/-- The line that a run writes to the error stream. -/
def Outcome.complaint (o : Outcome) : Option String :=
  o.failure.map fun failure => "Error: " ++ failure.message

end HeatMeter.Program
