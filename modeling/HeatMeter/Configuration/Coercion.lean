/-
  HeatMeter.Configuration.Coercion
  ────────────────────────────────
  **HOW A CONFIGURATION ANSWERS FOR A SETTING.**

  Configured values are taken for what a setting needs, whatever they were written
  as:

      quantity      a number; a truth value or a word for one counts as 1 or 0;
                    any other text is read as a number in free form
      truth value   a truth value; a number other than zero; a word for one
      whole number  a whole number that fits; the whole number nearest to a float,
                    held within 64 bits; otherwise as for a quantity
      text          a text; the text of any other single value

  A section is a table, in which unknown keys are ignored, or an array of its
  settings in order, of which any may be left out at the end.  An item of an array
  may be unset, which only a setting that need not be set takes.
-/
import HeatMeter.Decimal.Layout
import HeatMeter.Decimal.Read
import HeatMeter.Settings.Form
import HeatMeter.Toml.Value

namespace HeatMeter.Configuration

open Text
open Toml (Value)

/-! ## §1. Numbers. -/

/-- The sign of a float on a whole number. -/
def signedWhole (s : Float.Model.UnpackedFloat.Sign) (n : Nat) : Int :=
  match s with
  | .positive => n
  | .negative => -(n : Int)

/-- A whole number held within the bounds of a word. -/
def heldWithin (w : Word) (n : Int) : Int :=
  max w.least (min w.greatest n)

/-- The whole number of a word nearest to a float, a half going away from zero;
zero for NaN. -/
def nearestWhole (w : Word) (x : Float) : Int :=
  match x.toModel.unpack with
  | .notANumber | .zero _ => 0
  | .infinity .positive => w.greatest
  | .infinity .negative => w.least
  | .finite s m e _ =>
    match e with
    | .ofNat k => heldWithin w (signedWhole s (m * Nat.pow 2 k))
    | .negSucc k => heldWithin w (signedWhole s (Whole.halfUp m (k + 1)))

/-- A whole number that fits a word. -/
def fitting (w : Word) (n : Int) : Option Int :=
  if w.least ≤ n ∧ n ≤ w.greatest then some n else none

/-- The truth value that a word stands for. -/
def truthOfWord? (s : List Char) : Option Bool :=
  let word := String.ofList (lowerAscii s)
  if word ∈ ["true", "on", "yes"] then some true
  else if word ∈ ["false", "off", "no"] then some false
  else none

/-- A truth value as a number. -/
def bit (b : Bool) : Int :=
  if b then 1 else 0

/-- The whole number that a text names; a word without a sign takes no minus. -/
def wholeOfText? (w : Word) (s : List Char) : Option Int :=
  match truthOfWord? s with
  | some b => some (bit b)
  | none =>
    let n := match w with
      | .signed64 => Decimal.integer? s
      | .unsigned64 | .unsigned32 => (Decimal.natural? s).map Int.ofNat
    n.bind (fitting w)

/-- A value as a whole number of 64 bits. -/
def wide? (w : Word) : Value → Option Int
  | .integer n => fitting w n
  | .float x => some (nearestWhole w x)
  | .boolean b => some (bit b)
  | .text s => wholeOfText? w s
  | .array _ | .table _ | .unset => none

/-- A value as a whole number of a word; a shorter word is a longer one that fits. -/
def whole? (w : Word) (v : Value) : Option Int :=
  match w with
  | .signed64 | .unsigned64 => wide? w v
  | .unsigned32 => (wide? .unsigned64 v).bind (fitting .unsigned32)

/-- A value as a quantity. -/
def quantity? : Value → Option Float
  | .integer n => some (Float.ofInt n)
  | .float x => some x
  | .boolean b => some (Float.ofInt (bit b))
  | .text s =>
    match truthOfWord? s with
    | some b => some (Float.ofInt (bit b))
    | none => Decimal.float? s
  | .array _ | .table _ | .unset => none

/-! ## §2. Truth values and texts. -/

/-- A value as a truth value. -/
def truth? : Value → Option Bool
  | .boolean b => some b
  | .integer n => some (n ≠ 0)
  | .float x => some (x != 0)
  | .text s =>
    if s = ['1'] then some true else if s = ['0'] then some false else truthOfWord? s
  | .array _ | .table _ | .unset => none

/-- A value as a text. -/
def text? : Value → Option String
  | .text s => some (String.ofList s)
  | .integer n => some (String.ofList (signedDecimal n))
  | .float x => some (String.ofList (Decimal.plain x))
  | .boolean b => some (if b then "true" else "false")
  | .array _ | .table _ | .unset => none

/-! ## §3. Sections. -/

/-- The values of a section by the names of its settings. -/
def entries? (names : List String) : Value → Option (List (String × Value))
  | .table es => some es
  | .array vs => some (names.zip vs)
  | _ => none

/-- Whether a value is unset. -/
def isUnset : Value → Bool
  | .unset => true
  | _ => false

/-- Settings as a configuration gives them. -/
def form : ValueForm Value where
  entries? := entries?
  float? := quantity?
  bool? := truth?
  integer? := whole?
  isUnset := isUnset

end HeatMeter.Configuration
