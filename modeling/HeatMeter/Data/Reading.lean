/-
  HeatMeter.Data.Reading
  ──────────────────────
  **THE DATA FORM OF READINGS, RECORDS AND CHANNELS.**

  A reading is a record whose fields may all be missing or `null`.  A RECORD of
  a log is a reading with the instant of the poll as one more member; it must be
  an object.  Because its members are kept until it is known which of them belong
  to the reading, all of them must be text and finite numbers and must not nest
  too deeply, those that are skipped in the end included.
-/
import HeatMeter.Data.Basic
import HeatMeter.Json.Shape
import HeatMeter.Record

namespace HeatMeter

open Json (Fields)

namespace Reading

/-- The names of a reading's fields, in order. -/
def fieldNames : List String :=
  ["water_inlet_temp", "water_outlet_temp", "water_flow", "compressor_current",
    "compressor_frequency", "compressor_power", "voltage", "secondary_compressor_current",
    "secondary_compressor_frequency", "is_defrosting", "operation_mode"]

/-- The members of a reading. -/
def toMembers (r : Reading Float) : List (String × Json) :=
  [("water_inlet_temp", .ofOption .real r.inlet),
    ("water_outlet_temp", .ofOption .real r.outlet),
    ("water_flow", .ofOption .real r.flow),
    ("compressor_current", .ofOption .real r.current),
    ("compressor_frequency", .ofOption .real r.frequency),
    ("compressor_power", .ofOption .real r.power),
    ("voltage", .ofOption .real r.voltage),
    ("secondary_compressor_current", .ofOption .real r.secondCurrent),
    ("secondary_compressor_frequency", .ofOption .real r.secondFrequency),
    ("is_defrosting", .ofOption .bool r.defrost),
    ("operation_mode", .ofOption Mode.toJson r.mode)]

/-- A reading as a record. -/
def toJson (r : Reading Float) : Json :=
  .record r.toMembers

/-- The reading that fields amount to. -/
def ofFields? (f : Fields) : Option (Reading Float) := do
  return {
    inlet := ← f.optional "water_inlet_temp" Json.asFloat
    outlet := ← f.optional "water_outlet_temp" Json.asFloat
    flow := ← f.optional "water_flow" Json.asFloat
    current := ← f.optional "compressor_current" Json.asFloat
    frequency := ← f.optional "compressor_frequency" Json.asFloat
    power := ← f.optional "compressor_power" Json.asFloat
    voltage := ← f.optional "voltage" Json.asFloat
    secondCurrent := ← f.optional "secondary_compressor_current" Json.asFloat
    secondFrequency := ← f.optional "secondary_compressor_frequency" Json.asFloat
    defrost := ← f.optional "is_defrosting" Json.asBool
    mode := ← f.withDefault "operation_mode" none Mode.ofReportJson? }

/-- The reading in a record. -/
def ofJson? (x : Json) : Option (Reading Float) :=
  (x.fields .lenient fieldNames).bind ofFields?

end Reading

namespace Record

/-- A record as an object. -/
def toJson (r : Record Float) : Json :=
  .record (("timestamp", r.time.toJson) :: r.reading.toMembers)

/-- The record that an object holds. -/
def ofJson? (x : Json) : Option (Record Float) :=
  match x with
  | .object ms =>
    if x.isKeepable then do
      let f ← Json.pick ("timestamp" :: Reading.fieldNames) ms
      return {
        time := ← f.required "timestamp" Instant.ofJson?
        reading := ← Reading.ofFields? f }
    else none
  | _ => none

end Record

namespace Channels

/-- A series as pairs of an instant and a value. -/
def seriesToJson {β : Type} (f : β → Json) (s : Series β) : Json :=
  .array (s.map fun (t, x) => .array [t.toJson, f x])

/-- The series of pairs of an instant and a value. -/
def seriesOfJson? {β : Type} (decode : Json → Option β) : Json → Option (Series β) :=
  Json.asList (Json.asPair Instant.ofJson? decode)

/-- The channels as a record. -/
def toJson (c : Channels Float) : Json :=
  .record [("water_inlet_temp", seriesToJson .real c.inlet),
    ("water_outlet_temp", seriesToJson .real c.outlet),
    ("water_flow", seriesToJson .real c.flow),
    ("compressor_current", seriesToJson .real c.current),
    ("compressor_frequency", seriesToJson .real c.frequency),
    ("compressor_power", seriesToJson .real c.power),
    ("secondary_compressor_current", seriesToJson .real c.secondCurrent),
    ("secondary_compressor_frequency", seriesToJson .real c.secondFrequency),
    ("is_defrosting", seriesToJson .bool c.defrost),
    ("operation_mode", seriesToJson Mode.toJson c.mode)]

/-- The channels in a record. -/
def ofJson? (x : Json) : Option (Channels Float) := do
  let f ← x.fields .lenient ["water_inlet_temp", "water_outlet_temp", "water_flow",
    "compressor_current", "compressor_frequency", "compressor_power",
    "secondary_compressor_current", "secondary_compressor_frequency", "is_defrosting",
    "operation_mode"]
  let quantity (name : String) := f.withDefault name [] (seriesOfJson? Json.asFloat)
  return {
    inlet := ← quantity "water_inlet_temp"
    outlet := ← quantity "water_outlet_temp"
    flow := ← quantity "water_flow"
    current := ← quantity "compressor_current"
    frequency := ← quantity "compressor_frequency"
    power := ← quantity "compressor_power"
    secondCurrent := ← quantity "secondary_compressor_current"
    secondFrequency := ← quantity "secondary_compressor_frequency"
    defrost := ← f.withDefault "is_defrosting" [] (seriesOfJson? Json.asBool)
    mode := ← f.withDefault "operation_mode" [] (seriesOfJson? Mode.ofJson?) }

end Channels

end HeatMeter
