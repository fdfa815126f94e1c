/-
  HeatMeter.Configuration
  ───────────────────────
  **WHAT A RUN IS CONFIGURED TO DO.**

  A configuration says how to meter, which log to meter and where the energy
  counters are kept between runs.  Everything may be left out; a `replay` section
  that is there names the log, as a table or as a log and a snapshot in order.
-/
import HeatMeter.Configuration.Coercion
import HeatMeter.Configuration.Sources
import HeatMeter.Failure

namespace HeatMeter

open Text.Utf8 (Bytes)

/-- What a run is configured to do. -/
structure Configuration where
  /-- How to meter. -/
  settings : Settings Float
  /-- The path of the log. -/
  input : String
  /-- The path of the snapshot, if counters are kept. -/
  snapshot : Option String

namespace Configuration

open Toml (Table Value)

/-- The log of a run that is not told of one. -/
def standardInput : String := "data/replay.jsonl"

/-- A path that may be unset. -/
def optionalText? (v : Value) : Option (Option String) :=
  if isUnset v then some none else (text? v).map some

/-- The paths of the log and of the snapshot in a section. -/
def replay? : Value → Option (String × Option String)
  | .table es => do
    return (← (es.lookup "input").bind text?,
      ← ValueForm.setting es "snapshot" none optionalText?)
  | .array (input :: snapshot :: _) => do
    return (← text? input, ← optionalText? snapshot)
  | _ => none

/-- The configuration in a table. -/
def ofTable? (es : Table) : Option Configuration := do
  let settings ← ValueForm.setting es "metrics" Settings.standard form.settings?
  let (input, snapshot) ← ValueForm.setting es "replay" (standardInput, none) replay?
  return ⟨settings, input, snapshot⟩

/-- The configuration of a file, if there is one, and an environment; its settings
are acceptable. -/
def load (file : Option Bytes) (env : Environment) : Except Failure Configuration :=
  match (table? file env).bind ofTable? with
  | none => .error .configuration
  | some c =>
    match c.settings.fault? with
    | some fault => .error (.setting fault)
    | none => .ok c

end Configuration

end HeatMeter
