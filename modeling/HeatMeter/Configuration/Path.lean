/-
  HeatMeter.Configuration.Path
  ────────────────────────────
  **PATHS TO VALUES INSIDE A TABLE.**

  A path is a bare key followed by steps, each to a value inside the one before:

      `.key`      to the entry of a table
      `[index]`   to an item of an array, from its end if the index is negative;
                  blanks may surround the index, which fits 64 bits with a sign

  A key that is no path is the name of an entry as it stands.  What is not of the
  kind that a step needs is replaced by an empty table or array.  An array grows
  until it has the item, past its end or in front of its start, and what it grows
  by is unset.
-/
import HeatMeter.Keyed
import HeatMeter.Text.Digits
import HeatMeter.Toml.Strings
import HeatMeter.Toml.Value

namespace HeatMeter.Configuration

open Text
open Toml (Table Value)

/-! ## §1. Reading a path. -/

/-- A step from a value to one inside it. -/
inductive Step where
  /-- To the entry of a table. -/
  | entry (key : String)
  /-- To an item of an array, counted from its end if the index is negative. -/
  | item (index : Int)
  deriving DecidableEq, Repr

/-- An entry and the steps from its value to one inside it. -/
structure Path where
  /-- The key of the entry. -/
  key : String
  /-- The steps from its value. -/
  steps : List Step
  deriving DecidableEq, Repr

/-- An index off the front of a text; it has no plus sign. -/
def index? (s : List Char) : Option (Int × List Char) :=
  let (negative, s) := match s with
    | '-' :: rest => (true, rest)
    | rest => (false, rest)
  let (ds, rest) := digitRun s
  let i : Int := if negative then -(digitsValue ds : Int) else digitsValue ds
  if ds ≠ [] ∧ -9223372036854775808 ≤ i ∧ i ≤ 9223372036854775807 then some (i, rest)
  else none

/-- The steps that are the whole of a text; each takes a character at least. -/
def steps? : Nat → List Char → Option (List Step)
  | _, [] => some []
  | 0, _ => none
  | fuel + 1, '.' :: s =>
    match s.span Toml.isBareKey with
    | ([], _) => none
    | (k, rest) => (steps? fuel rest).map (.entry (String.ofList k) :: ·)
  | fuel + 1, '[' :: s =>
    match index? (Toml.skipBlanks s) with
    | none => none
    | some (i, rest) =>
      match Toml.skipBlanks rest with
      | ']' :: rest => (steps? fuel rest).map (.item i :: ·)
      | _ => none
  | _ + 1, _ => none

/-- The path that a key means. -/
def Path.ofKey (key : List Char) : Path :=
  let (k, rest) := key.span Toml.isBareKey
  match k, steps? rest.length rest with
  | _ :: _, some steps => ⟨String.ofList k, steps⟩
  | _, _ => ⟨String.ofList key, []⟩

/-! ## §2. Changing the value at a path. -/

/-- An array grown so that it has an item at an index, and the place of the item. -/
def reach (index : Int) (items : List Value) : List Value × Nat :=
  match index with
  | .ofNat n => (items ++ List.replicate (n + 1 - items.length) .unset, n)
  | .negSucc n =>
    (List.replicate (n + 1 - items.length) .unset ++ items, items.length - (n + 1))

/-- A value with the one that some steps lead to changed. -/
def changeInside (change : Value → Value) : List Step → Value → Value
  | [], v => change v
  | .entry k :: rest, v =>
    let inner := (v.entries.lookup k).getD .unset
    .table (Keyed.put k (changeInside change rest inner) v.entries)
  | .item i :: rest, v =>
    let (items, n) := reach i v.items
    .array (items.modify n (changeInside change rest))

/-- Entries with the value at a path changed. -/
def Path.change (p : Path) (change : Value → Value) (es : Table) : Table :=
  Keyed.put p.key (changeInside change p.steps ((es.lookup p.key).getD .unset)) es

end HeatMeter.Configuration
