/-
  HeatMeter.Json
  ──────────────
  **JSON DOCUMENTS.**

  A number without fraction and exponent that fits 64 bits, signed if negative,
  is an `integer`; every other number is a `real`, minus zero too.  A real beyond
  the range of floats is an infinity, which no reader of a quantity accepts.

  The escapes of a string may spell half of a surrogate pair, which is no text.
  Such a string is kept as `none`: it can be skipped and cannot be read.
  Members keep their order and may repeat a key.
-/
namespace HeatMeter

/-- A JSON document. -/
inductive Json where
  /-- The value `null`. -/
  | null
  /-- A truth value. -/
  | bool (b : Bool)
  /-- A whole number of 64 bits. -/
  | integer (n : Int)
  /-- Any other number. -/
  | real (x : Float)
  /-- A string, `none` if it spells no text. -/
  | string (s : Option String)
  /-- Values in order. -/
  | array (items : List Json)
  /-- Keys with values in order. -/
  | object (members : List (Option String × Json))

namespace Json

/-- A string that spells a text. -/
def text (s : String) : Json := .string (some s)

/-- An object whose keys are texts. -/
def record (members : List (String × Json)) : Json :=
  .object (members.map fun (k, v) => (some k, v))

/-- A value or `null`. -/
def ofOption {β : Type} (f : β → Json) : Option β → Json
  | some x => f x
  | none => .null

instance : Inhabited Json := ⟨.null⟩

/-- Whether a number is a 64-bit integer, signed if negative. -/
def fits64 (n : Int) : Bool :=
  -9223372036854775808 ≤ n && n ≤ 18446744073709551615

end Json

end HeatMeter
