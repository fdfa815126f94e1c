/-
  HeatMeter.Toml.Value
  ────────────────────
  **VALUES OF A CONFIGURATION.**

  Tables keep their entries in order and hold each key once.  Dates and times are
  kept as their canonical text, for no setting is one.  A document holds no unset
  value; one stands where an array has been made longer than what was put into it.
-/
namespace HeatMeter.Toml

/-- A value of a configuration. -/
inductive Value where
  /-- A truth value. -/
  | boolean (b : Bool)
  /-- A whole number of 64 bits with a sign. -/
  | integer (n : Int)
  /-- A float. -/
  | float (x : Float)
  /-- A text, or a date or time as text. -/
  | text (s : List Char)
  /-- Values in order. -/
  | array (items : List Value)
  /-- Values by key. -/
  | table (entries : List (String × Value))
  /-- No value yet. -/
  | unset

/-- The entries of a table. -/
abbrev Table := List (String × Value)

instance : Inhabited Value := ⟨.unset⟩

/-- The entries of a value, none where it is not a table. -/
def Value.entries : Value → Table
  | .table es => es
  | _ => []

/-- The items of a value, none where it is not an array. -/
def Value.items : Value → List Value
  | .array xs => xs
  | _ => []

end HeatMeter.Toml
