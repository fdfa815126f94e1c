/-
  HeatMeter.Main
  ──────────────
  **THE COMMAND.**

  The command takes no arguments.  It looks up what a run needs of the disk and of
  the environment, lets `Program.run` decide everything, prints what was printed,
  writes the snapshot if one was written, and exits with the code of the run.
-/
import HeatMeter.Program

namespace HeatMeter.Command

open Text.Utf8 (Bytes)

/-- Whether a path leads to a folder. -/
def isFolder (path : String) : IO Bool := do
  try
    discard (IO.FS.realPath (path ++ "/."))
    return true
  catch _ => return false

/-- The content of the file that a path leads to. -/
def content? (path : String) : IO (Option Bytes) := do
  try
    let bytes ← IO.FS.readBinFile path
    return some bytes.toList
  catch _ => return none

/-- A disk with what is there at one step of a path. -/
def seeStep (steps : List String) (l : Location) (d : Disk) : IO Disk := do
  let path := "/".intercalate steps
  if ← isFolder path then
    return { d with folders := l :: d.folders }
  else
    match ← content? path with
    | some bytes => return { d with files := Keyed.put l bytes d.files }
    | none => return d

/-- A disk with what is there along a path. -/
def see (path : String) (d : Disk) : IO Disk := do
  if (Disk.pathFault? path).isSome then return d
  let (l, steps) := Disk.start path
  let mut d := d
  for n in List.range steps.length do
    let taken := steps.take (n + 1)
    d ← seeStep taken (taken.foldl Disk.step l) d
  return d

/-- Bytes between zeros. -/
def betweenZeros : Bytes → List Bytes
  | [] => [[]]
  | b :: rest =>
    match betweenZeros rest with
    | [] => [[b]]
    | part :: parts => if b = 0 then [] :: part :: parts else (b :: part) :: parts

/-- A variable as the system gives it: name and value around the first `=`. -/
def assignment? (bytes : Bytes) : Option (String × String) :=
  match (Text.Utf8.lossy bytes).span (· ≠ '=') with
  | (name, _ :: value) => some (String.ofList name, String.ofList value)
  | _ => none

/-- The variables of the process. -/
def environment : IO Configuration.Environment := do
  match ← content? "/proc/self/environ" with
  | some bytes => return (betweenZeros bytes).filterMap assignment?
  | none => return []

/-- What a run needs of the disk. -/
def disk (env : Configuration.Environment) : IO Disk := do
  let d ← see Program.configurationPath { files := [] }
  match Program.configuration d env with
  | .error _ => return d
  | .ok c =>
    let d ← see c.input d
    match c.snapshot with
    | some path => see path d
    | none => return d

/-- Write the snapshot of a run that kept one. -/
def keepSnapshot (o : Program.Outcome) (env : Configuration.Environment) : IO Unit := do
  match Program.configuration o.disk env with
  | .ok { snapshot := some path, .. } =>
    match o.disk.read path with
    | .ok bytes => IO.FS.writeBinFile path (ByteArray.mk bytes.toArray)
    | .error _ => return
  | _ => return

/-- One run. -/
def run : IO UInt32 := do
  let env ← environment
  let o := Program.run (← disk env) env
  IO.print o.printed
  match o.complaint with
  | some line => IO.eprintln line
  | none => keepSnapshot o env
  return o.exitCode

end HeatMeter.Command

/-- Meter the configured log. -/
def main : IO UInt32 :=
  HeatMeter.Command.run
