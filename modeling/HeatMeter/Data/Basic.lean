/-
  HeatMeter.Data.Basic
  ────────────────────
  **THE DATA FORM OF INSTANTS, DATES, NAMES AND SAMPLES.**

  Every type that appears in a data file has a function `toJson` that writes it
  and a function `ofJson?` that reads it.  Instants and dates are strings, named
  values are their names, quantities are numbers.
-/
import HeatMeter.Compressor
import HeatMeter.Cop.Quality
import HeatMeter.Defrost
import HeatMeter.Json.Decode
import HeatMeter.Mode
import HeatMeter.Time.Text

namespace HeatMeter

open Json (record)

/-- An instant as its text. -/
def Instant.toJson (t : Instant) : Json :=
  .text (String.ofList t.text)

/-- The instant that a string names. -/
def Instant.ofJson? (x : Json) : Option Instant :=
  x.asText.bind Instant.read?

/-- A date as its text. -/
def Date.toJson (d : Date) : Json :=
  .text (String.ofList d.text)

/-- The date that a string names. -/
def Date.ofJson? (x : Json) : Option Date :=
  x.asText.bind Date.read?

/-- A mode as its name. -/
def Mode.toJson (m : Mode) : Json :=
  .text m.name

/-- The mode of a name, letter by letter. -/
def Mode.ofJson? : Json → Option Mode :=
  Json.asChoice (Mode.all.map fun m => (m.name, m))

/-- The mode that a unit reports, as text or `null`. -/
def Mode.ofReportJson? : Json → Option (Option Mode)
  | .null => some none
  | x =>
    match x.asText.map Mode.ofReport with
    | some (.ok m) => some m
    | _ => none

/-- A kind of heat as its name. -/
def HeatKind.toJson (k : HeatKind) : Json :=
  .text k.name

/-- The kind of heat of a name. -/
def HeatKind.ofJson? : Json → Option HeatKind :=
  Json.asChoice ([HeatKind.heating, .cooling].map fun k => (k.name, k))

/-- A defrost phase as its name. -/
def DefrostPhase.toJson (p : DefrostPhase) : Json :=
  .text p.name

/-- The defrost phase of a name. -/
def DefrostPhase.ofJson? : Json → Option DefrostPhase :=
  Json.asChoice ([DefrostPhase.normal, .defrost, .recovery].map fun p => (p.name, p))

/-- A grade as its name. -/
def Grade.toJson (g : Grade) : Json :=
  .text g.name

/-- The grade of a name. -/
def Grade.ofJson? : Json → Option Grade :=
  Json.asChoice
    ([Grade.noData, .insufficient, .preliminary, .optimal].map fun g => (g.name, g))

/-- A quality as a record. -/
def Quality.toJson (q : Quality Float) : Json :=
  record [("quality", q.grade.toJson), ("measurement_count", .integer q.count),
    ("time_span_minutes", .real q.spanMinutes)]

/-- The quality in a record. -/
def Quality.ofJson? (x : Json) : Option (Quality Float) := do
  let f ← x.fields .strict ["quality", "measurement_count", "time_span_minutes"]
  return {
    grade := ← f.required "quality" Grade.ofJson?
    count := ← f.required "measurement_count" (Json.asNatUpTo 18446744073709551615)
    spanMinutes := ← f.required "time_span_minutes" Json.asFloat }

/-- Mean durations as a record. -/
def CompressorTimes.toJson (t : CompressorTimes Float) : Json :=
  record [("cycle", Json.ofOption .real t.cycle), ("run", Json.ofOption .real t.run),
    ("rest", Json.ofOption .real t.rest)]

/-- The mean durations in a record. -/
def CompressorTimes.ofJson? (x : Json) : Option (CompressorTimes Float) := do
  let f ← x.fields .strict ["cycle", "run", "rest"]
  return {
    cycle := ← f.optional "cycle" Json.asFloat
    run := ← f.optional "run" Json.asFloat
    rest := ← f.optional "rest" Json.asFloat }

/-- A sample as a record. -/
def Sample.toJson (m : Sample Float) : Json :=
  record [("timestamp", m.time.toJson), ("thermal_power", .real m.thermal),
    ("electrical_power", .real m.electrical)]

/-- The sample in a record. -/
def Sample.ofJson? (x : Json) : Option (Sample Float) := do
  let f ← x.fields .strict ["timestamp", "thermal_power", "electrical_power"]
  return {
    time := ← f.required "timestamp" Instant.ofJson?
    thermal := ← f.required "thermal_power" Json.asFloat
    electrical := ← f.required "electrical_power" Json.asFloat }

end HeatMeter
