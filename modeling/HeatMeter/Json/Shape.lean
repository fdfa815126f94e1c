/-
  HeatMeter.Json.Shape
  ────────────────────
  **WHAT A DOCUMENT MUST BE TO BE KEPT WHOLE.**

  A value that is skipped may hold anything the grammar allows.  A value that is
  kept before its meaning is known must be made of text and finite numbers, and
  must not nest too deeply.
-/
import HeatMeter.Json

namespace HeatMeter.Json

mutual

/-- How deeply arrays and objects nest. -/
def depth : Json → Nat
  | .array xs => depthItems xs + 1
  | .object ms => depthMembers ms + 1
  | _ => 0

/-- The deepest nesting of items. -/
def depthItems : List Json → Nat
  | [] => 0
  | x :: rest => max (depth x) (depthItems rest)

/-- The deepest nesting of members. -/
def depthMembers : List (Option String × Json) → Nat
  | [] => 0
  | (_, x) :: rest => max (depth x) (depthMembers rest)

end

mutual

/-- Whether every string spells a text and every number is finite. -/
def isPlain : Json → Bool
  | .string s => s.isSome
  | .real x => x.isFinite
  | .array xs => plainItems xs
  | .object ms => plainMembers ms
  | _ => true

/-- Whether items are plain. -/
def plainItems : List Json → Bool
  | [] => true
  | x :: rest => isPlain x && plainItems rest

/-- Whether keys spell texts and values are plain. -/
def plainMembers : List (Option String × Json) → Bool
  | [] => true
  | (k, x) :: rest => k.isSome && isPlain x && plainMembers rest

end

/-- The deepest nesting of a document that is kept whole. -/
def deepest : Nat := 127

/-- Whether a document can be kept whole. -/
def isKeepable (x : Json) : Bool :=
  x.isPlain && x.depth ≤ deepest

end HeatMeter.Json
