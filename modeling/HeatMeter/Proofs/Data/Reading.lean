/-
  HeatMeter.Proofs.Data.Reading
  ─────────────────────────────
  **A RECORD OF A LOG SURVIVES ITS LINE.**

  A record is written as one object, the instant and the fields of the reading side by
  side, and a field without a value is `null`.  The object without layout is a line of a
  log, and the line is read as the record:

      the instant           by `Instant.read?_text`, a leap second included
      a quantity            as the same float, since it is finite
      the defrost flag      as it is
      the mode              as a report of it, though it is written by its name
      a missing value       whether it is `null` or left out

  Fields are found by name, so truth values under other names change nothing, wherever
  they stand among the members: `ofJson?_loosened`.
-/
import HeatMeter.Data.Log
import HeatMeter.Proofs.Json.Line
import HeatMeter.Proofs.Json.Records
import HeatMeter.Proofs.Mode
import HeatMeter.Proofs.Time.Text

namespace HeatMeter

open Json (Agrees Loosened Simple)

/-- An instant that its text names is read back. -/
theorem Instant.ofJson?_toJson {t : Instant} (h : Instant.read? t.text = some t) :
    Instant.ofJson? t.toJson = some t := by
  have htext : t.toJson.asText = some t.text := congrArg some String.toList_ofList
  rw [Instant.ofJson?, htext, Option.bind_some, h]

/-! ## §1. The fields of a reading. -/

namespace Reading

variable {r : Reading Float}

/-- The quantities that a reading may show, in order. -/
def quantities (r : Reading Float) : List (Option Float) :=
  [r.inlet, r.outlet, r.flow, r.current, r.frequency, r.power, r.voltage, r.secondCurrent,
    r.secondFrequency]

/-- Every quantity that is shown is finite. -/
def Finite (r : Reading Float) : Prop :=
  ∀ q ∈ r.quantities, ∀ x ∈ q, x.isFinite = true

theorem asOptional_real {q : Option Float} (h : ∀ x ∈ q, x.isFinite = true) :
    (Json.ofOption .real q).asOptional Json.asFloat = some q := by
  apply Json.asOptional_ofOption
  intro x hx
  refine ⟨nofun, ?_⟩
  rw [Json.asFloat, if_pos (h x hx)]

theorem asOptional_bool (b : Option Bool) :
    (Json.ofOption .bool b).asOptional Json.asBool = some b :=
  Json.asOptional_ofOption fun _ _ => ⟨nofun, rfl⟩

/-- A mode that is written by its name is reported by it. -/
theorem ofReportJson?_ofOption (m : Option Mode) :
    Mode.ofReportJson? (.ofOption Mode.toJson m) = some m := by
  cases m with
  | none => rfl
  | some m => cases m <;> rfl

/-- The fields of a reading that was written are found under their names, with one more
member in front. -/
theorem ofFields?_eq (r : Reading Float) (x : Json) :
    ofFields? (("timestamp", x) :: r.toMembers) = do
      return {
        inlet := ← (Json.ofOption .real r.inlet).asOptional Json.asFloat
        outlet := ← (Json.ofOption .real r.outlet).asOptional Json.asFloat
        flow := ← (Json.ofOption .real r.flow).asOptional Json.asFloat
        current := ← (Json.ofOption .real r.current).asOptional Json.asFloat
        frequency := ← (Json.ofOption .real r.frequency).asOptional Json.asFloat
        power := ← (Json.ofOption .real r.power).asOptional Json.asFloat
        voltage := ← (Json.ofOption .real r.voltage).asOptional Json.asFloat
        secondCurrent := ← (Json.ofOption .real r.secondCurrent).asOptional Json.asFloat
        secondFrequency := ← (Json.ofOption .real r.secondFrequency).asOptional Json.asFloat
        defrost := ← (Json.ofOption .bool r.defrost).asOptional Json.asBool
        mode := ← Mode.ofReportJson? (.ofOption Mode.toJson r.mode) } :=
  rfl

/-- **A reading of finite quantities is read back from its members.** -/
theorem ofFields?_toMembers (h : r.Finite) (x : Json) :
    ofFields? (("timestamp", x) :: r.toMembers) = some r := by
  have hfield : ∀ q ∈ r.quantities, (Json.ofOption .real q).asOptional Json.asFloat = some q :=
    fun q hq => asOptional_real (h q hq)
  simp only [quantities, List.forall_mem_cons] at hfield
  obtain ⟨hinlet, houtlet, hflow, hcurrent, hfrequency, hpower, hvoltage, hsecondCurrent,
    hsecondFrequency, -⟩ := hfield
  rw [ofFields?_eq, hinlet, houtlet, hflow, hcurrent, hfrequency, hpower, hvoltage,
    hsecondCurrent, hsecondFrequency, asOptional_bool, ofReportJson?_ofOption]
  rfl

/-- Fields that agree amount to the same reading. -/
theorem ofFields?_of_agrees {f g : Json.Fields} (h : Agrees ("timestamp" :: fieldNames) f g) :
    ofFields? g = ofFields? f := by
  have hoptional {β : Type} (name : String) (hname : name ∈ "timestamp" :: fieldNames)
      (decode : Json → Option β) : g.optional name decode = f.optional name decode :=
    h.optional hname decode
  have hmode : g.withDefault "operation_mode" none Mode.ofReportJson?
      = f.withDefault "operation_mode" none Mode.ofReportJson? :=
    h.withDefault (by decide) rfl
  unfold ofFields?
  rw [hoptional "water_inlet_temp" (by decide), hoptional "water_outlet_temp" (by decide),
    hoptional "water_flow" (by decide), hoptional "compressor_current" (by decide),
    hoptional "compressor_frequency" (by decide), hoptional "compressor_power" (by decide),
    hoptional "voltage" (by decide), hoptional "secondary_compressor_current" (by decide),
    hoptional "secondary_compressor_frequency" (by decide), hoptional "is_defrosting" (by decide),
    hmode]

theorem simple_toMembers (h : r.Finite) : ∀ m ∈ r.toMembers, Simple m.2 := by
  have hreal : ∀ q ∈ r.quantities, Simple (.ofOption .real q) := by
    intro q hq
    cases q with
    | none => trivial
    | some x => exact h _ hq x rfl
  have hbool (b : Option Bool) : Simple (.ofOption .bool b) := by
    cases b <;> trivial
  have hmode (m : Option Mode) : Simple (.ofOption Mode.toJson m) := by
    cases m with
    | none => trivial
    | some m => exact Json.simple_text m.name
  simp only [quantities, List.forall_mem_cons] at hreal
  obtain ⟨hinlet, houtlet, hflow, hcurrent, hfrequency, hpower, hvoltage, hsecondCurrent,
    hsecondFrequency, -⟩ := hreal
  unfold toMembers
  simp only [List.forall_mem_cons]
  exact ⟨hinlet, houtlet, hflow, hcurrent, hfrequency, hpower, hvoltage, hsecondCurrent,
    hsecondFrequency, hbool r.defrost, hmode r.mode, nofun⟩

end Reading

/-! ## §2. Records. -/

namespace Record

variable {r : Record Float} {loose : List (String × Json)}

/-- The members of a record. -/
def toMembers (r : Record Float) : List (String × Json) :=
  ("timestamp", r.time.toJson) :: r.reading.toMembers

/-- The names of a record's fields. -/
def fieldNames : List String :=
  "timestamp" :: Reading.fieldNames

theorem names_toMembers (r : Record Float) : r.toMembers.map Prod.fst = fieldNames :=
  rfl

theorem simple_toMembers (h : r.reading.Finite) : ∀ m ∈ r.toMembers, Simple m.2 :=
  List.forall_mem_cons.2 ⟨Json.simple_text _, Reading.simple_toMembers h⟩

/-- **A record is read back however loosely it is written.** -/
theorem ofJson?_loosened (hfinite : r.reading.Finite)
    (htime : Instant.read? r.time.text = some r.time)
    (h : Loosened fieldNames r.toMembers loose) : ofJson? (.record loose) = some r := by
  have hnames : (r.toMembers.map Prod.fst).Nodup := by
    rw [names_toMembers]
    decide
  obtain ⟨f, hpick, hagrees⟩ := h.pick hnames
  have hkeep : (Json.record loose).isKeepable = true :=
    Json.isKeepable_record (h.simple (simple_toMembers hfinite))
  have hinstant : f.required "timestamp" Instant.ofJson? = some r.time := by
    rw [hagrees.required (by decide) (x := r.time.toJson) rfl nofun,
      Instant.ofJson?_toJson htime]
  have hreading : Reading.ofFields? f = some r.reading := by
    rw [Reading.ofFields?_of_agrees hagrees]
    exact Reading.ofFields?_toMembers hfinite _
  show (if (Json.record loose).isKeepable = true then
    (Json.pick fieldNames (loose.map fun m => (some m.1, m.2))).bind fun f =>
      (f.required "timestamp" Instant.ofJson?).bind fun t =>
        (Reading.ofFields? f).bind fun reading => some ⟨t, reading⟩
    else none) = some r
  rw [if_pos hkeep, hpick, Option.bind_some, hinstant, Option.bind_some, hreading]
  rfl

end Record

/-! ## §3. Lines of a log. -/

namespace Log

/-- A text without control characters is one line. -/
theorem lines_of_printable {s : List Char} (h : Json.Printable s) : lines s = [s] := by
  induction s with
  | nil => rfl
  | cons c s ih =>
    obtain ⟨hc, hs⟩ := List.forall_mem_cons.1 h
    have hfeed : c ≠ '\n' := by
      rintro rfl
      exact absurd hc (by decide)
    have hreturn : c ≠ '\r' := by
      rintro rfl
      exact absurd hc (by decide)
    unfold lines
    split
    next heq => cases heq
    next heq =>
      injection heq with heq _
      exact absurd heq hfeed
    next heq =>
      injection heq with heq _
      exact absurd heq hreturn
    next heq =>
      injection heq with hfirst hrest
      rw [← hfirst, ← hrest, ih hs]

/-- A text is a line of a log that holds a record: it is a single line, is not blank and is
read as the record. -/
structure IsLineOf (r : Record Float) (text : List Char) : Prop where
  single : lines text = [text]
  nonblank : ¬ Text.AllBlank text
  record : record? text = some r

end Log

namespace Record

variable {r : Record Float} {loose : List (String × Json)}

/-- A record that is written loosely is a line of a log. -/
theorem isLineOf_loosened (hfinite : r.reading.Finite)
    (htime : Instant.read? r.time.text = some r.time)
    (h : Loosened fieldNames r.toMembers loose) : Log.IsLineOf r (Json.record loose).compact := by
  refine ⟨Log.lines_of_printable (Json.printable_compact _), ?_, ?_⟩
  · -- the line starts with a brace
    intro hblank
    have hbrace : '{' ∈ (Json.record loose).compact := by
      rw [Json.record_eq, Json.compact]
      exact List.mem_cons_self
    exact absurd (hblank '{' hbrace) (by decide)
  · have hwritten : Json.written (.record loose) = .record loose :=
      Json.written_record (h.simple (simple_toMembers hfinite))
    rw [Log.record?, Json.parse_compact, hwritten]
    exact ofJson?_loosened hfinite htime h

/-- **A record survives its line.**  The quantities that a record shows are finite, and the
text of its instant names it.  Then the text of the record is a line of a log and is read
as the record; and so is the text of every record that differs from it in `null`s that are
left out and in truth values, anywhere among the members, under names that are no
fields. -/
theorem survives_its_line (r : Record Float) (hfinite : r.reading.Finite)
    (htime : Instant.read? r.time.text = some r.time) :
    Log.IsLineOf r r.toJson.compact
      ∧ ∀ loose, Loosened fieldNames r.toMembers loose
        → Log.IsLineOf r (Json.record loose).compact := by
  refine ⟨?_, ?_⟩
  · exact isLineOf_loosened hfinite htime (.refl fieldNames r.toMembers)
  · intro loose h
    exact isLineOf_loosened hfinite htime h

/-! ## §4. A record of the last leap second. -/

/-- Hot water during the leap second at the end of 2016; most sensors are silent. -/
def leapSecond : Record Float where
  time := ⟨1483228799, 1500000000, by decide, by decide⟩
  reading := {
    inlet := some 40
    outlet := some 44.5
    flow := some 1.2
    defrost := some false
    mode := some .dhw }

/-- Its members without the silent sensors, among flags that are no fields. -/
def leapSecondLoose : List (String × Json) :=
  [("online", .bool true), ("timestamp", leapSecond.time.toJson),
    ("water_inlet_temp", .real 40), ("water_outlet_temp", .real 44.5), ("water_flow", .real 1.2),
    ("compressor_power", .null), ("alarm", .bool false), ("is_defrosting", .bool false),
    ("operation_mode", .text "dhw"), ("online", .bool false)]

theorem leapSecond_loosened : Loosened fieldNames leapSecond.toMembers leapSecondLoose := by
  have hend : Loosened fieldNames [] [("online", .bool false)] := .add false (by decide) .nil
  have hflags : Loosened fieldNames
      [("is_defrosting", .bool false), ("operation_mode", .text "dhw")]
      [("alarm", .bool false), ("is_defrosting", .bool false), ("operation_mode", .text "dhw"),
        ("online", .bool false)] :=
    .add false (by decide) (.keep _ (.keep _ hend))
  exact .add true (by decide) <| .keep _ <| .keep _ <| .keep _ <| .keep _ <| .drop _ <| .drop _ <|
    .keep _ <| .drop _ <| .drop _ <| .drop _ hflags

theorem survives_its_line_of_leapSecond : leapSecond.reading.Finite
    ∧ Instant.read? leapSecond.time.text = some leapSecond.time
    ∧ Log.IsLineOf leapSecond leapSecond.toJson.compact
    ∧ Log.IsLineOf leapSecond (Json.record leapSecondLoose).compact := by
  have hfinite : leapSecond.reading.Finite := by
    unfold Reading.Finite
    decide
  have htime : Instant.read? leapSecond.time.text = some leapSecond.time :=
    (Instant.read?_text_iff _).2 fun _ => by decide
  obtain ⟨hline, hloose⟩ := leapSecond.survives_its_line hfinite htime
  exact ⟨hfinite, htime, hline, hloose _ leapSecond_loosened⟩

end Record

end HeatMeter
