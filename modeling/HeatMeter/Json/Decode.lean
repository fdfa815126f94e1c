/-
  HeatMeter.Json.Decode
  ─────────────────────
  **FROM DOCUMENTS TO TYPED VALUES.**

  Every decoder answers `none` where the document does not have the form it asks
  for.  A RECORD is an object whose keys are field names, or an array of the
  field values in order:

    * members with other keys are skipped, whatever their values;
    * a field given twice is an error, and so is a key that spells no text;
    * an array may not be longer than the list of fields;
    * a LENIENT record may lack any field, which then has its default; a STRICT
      record may lack no field as an array, and as an object only those that
      their decoder lets be missing.
-/
import HeatMeter.Json

namespace HeatMeter.Json

/-! ## §1. Single values. -/

/-- A quantity: any finite number. -/
def asFloat : Json → Option Float
  | .integer n => some (Float.ofInt n)
  | .real x => if x.isFinite then some x else none
  | _ => none

/-- A truth value. -/
def asBool : Json → Option Bool
  | .bool b => some b
  | _ => none

/-- A text. -/
def asText : Json → Option (List Char)
  | .string (some s) => some s.toList
  | _ => none

/-- A whole number between two bounds. -/
def asIntegerWithin (low high : Int) : Json → Option Int
  | .integer n => if low ≤ n ∧ n ≤ high then some n else none
  | _ => none

/-- A whole number from zero to a bound. -/
def asNatUpTo (high : Nat) (x : Json) : Option Nat :=
  (asIntegerWithin 0 high x).map Int.toNat

/-- A value that may be `null`. -/
def asOptional {β : Type} (decode : Json → Option β) : Json → Option (Option β)
  | .null => some none
  | x => (decode x).map some

/-- A list of values. -/
def asList {β : Type} (decode : Json → Option β) : Json → Option (List β)
  | .array xs => xs.mapM decode
  | _ => none

/-- A pair of values. -/
def asPair {β γ : Type} (first : Json → Option β) (second : Json → Option γ) :
    Json → Option (β × γ)
  | .array [x, y] => do return (← first x, ← second y)
  | _ => none

/-- One of some named values: the name, or an object that holds `null` under it. -/
def asChoice {β : Type} (names : List (String × β)) : Json → Option β
  | .string (some s) => names.lookup s
  | .object [(some s, .null)] => names.lookup s
  | _ => none

/-! ## §2. Records. -/

/-- The fields found in a record, by name. -/
abbrev Fields := List (String × Json)

/-- Whether a record may lack fields. -/
inductive Completeness where
  /-- A missing field has its default. -/
  | lenient
  /-- A missing field is an error, unless its decoder says otherwise. -/
  | strict
  deriving DecidableEq, Repr

/-- The members whose keys are among the names; none if a key spells no text or a
name comes twice. -/
def pick (names : List String) : List (Option String × Json) → Option Fields
  | [] => some []
  | (none, _) :: _ => none
  | (some k, x) :: rest =>
    match pick names rest with
    | none => none
    | some found =>
      if k ∈ names then
        if (found.lookup k).isSome then none else some ((k, x) :: found)
      else some found

/-- The fields of a record. -/
def fields (c : Completeness) (names : List String) : Json → Option Fields
  | .object ms => pick names ms
  | .array xs =>
    if xs.length ≤ names.length ∧ (c = .lenient ∨ xs.length = names.length) then
      some (names.zip xs)
    else none
  | _ => none

namespace Fields

variable {β : Type}

/-- A field that must be there. -/
def required (f : Fields) (name : String) (decode : Json → Option β) : Option β :=
  (f.lookup name).bind decode

/-- A field with a default. -/
def withDefault (f : Fields) (name : String) (default : β) (decode : Json → Option β) :
    Option β :=
  match f.lookup name with
  | some x => decode x
  | none => some default

/-- A field that may be missing or `null`. -/
def optional (f : Fields) (name : String) (decode : Json → Option β) : Option (Option β) :=
  f.withDefault name none (asOptional decode)

end Fields

end HeatMeter.Json
