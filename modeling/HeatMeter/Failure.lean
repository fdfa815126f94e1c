/-
  HeatMeter.Failure
  ─────────────────
  **WHY A RUN FAILS.**

  Every way for a run to end without success, and the text that says so.
-/
import HeatMeter.Disk
import HeatMeter.Settings.Check

namespace HeatMeter

/-- Why a run fails. -/
inductive Failure where
  /-- The configuration cannot be read. -/
  | configuration
  /-- A setting is not acceptable. -/
  | setting (fault : SettingFault Float)
  /-- A file cannot be read or written. -/
  | disk (fault : DiskFault)
  /-- A log is not a text. -/
  | notText
  /-- A snapshot cannot be read. -/
  | snapshot
  /-- A log holds no record. -/
  | noRecords (path : String)

/-- The text of a failure. -/
def Failure.message : Failure → String
  | .configuration => "Configuration error"
  | .setting fault => fault.message
  | .disk fault => "IO error: " ++ fault.message
  | .notText => "IO error: stream did not contain valid UTF-8"
  | .snapshot => "JSON error"
  | .noRecords path => "No replay records in " ++ path

end HeatMeter
