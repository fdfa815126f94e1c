/-
  HeatMeter.Mode
  ──────────────
  **OPERATING MODES AND KINDS OF HEAT.**

  A unit reports what it is working for: heating, cooling, domestic hot water
  (`dhw`) or a pool, or that no circuit is active.  The report is text.  Blanks
  around the word are ignored and so is the case of its ASCII letters; the word
  `none` and the empty text report no mode.
-/
import HeatMeter.Text.Blank

namespace HeatMeter

/-- What the unit is working for. -/
inductive Mode where
  /-- Space heating. -/
  | heating
  /-- Space cooling. -/
  | cooling
  /-- Domestic hot water. -/
  | dhw
  /-- A swimming pool. -/
  | pool
  deriving DecidableEq, Repr

/-- The two directions in which heat is moved. -/
inductive HeatKind where
  /-- Into the water. -/
  | heating
  /-- Out of the water. -/
  | cooling
  deriving DecidableEq, Repr

/-- The name of a kind of heat. -/
def HeatKind.name : HeatKind → String
  | .heating => "heating"
  | .cooling => "cooling"

/-- Why a text names no mode. -/
inductive ModeError where
  /-- The word, trimmed and in small letters, is none of the modes. -/
  | unknown (word : List Char)
  /-- A mode is needed and the text reports that there is none. -/
  | noMode
  deriving DecidableEq, Repr

/-- The text of a mode error. -/
def ModeError.message : ModeError → String
  | .unknown word => "unknown operation mode: " ++ String.ofList word
  | .noMode => "operation mode is none"

namespace Mode

/-- Every mode, in the order in which modes are listed. -/
def all : List Mode :=
  [.heating, .cooling, .dhw, .pool]

/-- The word for a mode. -/
def name : Mode → String
  | .heating => "heating"
  | .cooling => "cooling"
  | .dhw => "dhw"
  | .pool => "pool"

/-- Hot water and pool circuits only ever produce heat. -/
def alwaysHeats : Mode → Bool
  | .dhw | .pool => true
  | .heating | .cooling => false

/-- The mode whose word this is. -/
def ofName? (word : List Char) : Option Mode :=
  all.find? fun m => m.name.toList = word

/-- The mode a unit reports, none when it reports that no circuit is active. -/
def ofReport (s : List Char) : Except ModeError (Option Mode) :=
  let word := Text.lowerAscii (Text.trim s)
  match ofName? word with
  | some m => .ok (some m)
  | none => if word = [] ∨ word = "none".toList then .ok none else .error (.unknown word)

/-- The mode a text names; a report of no mode is an error. -/
def ofText (s : List Char) : Except ModeError Mode :=
  match ofReport s with
  | .ok (some m) => .ok m
  | .ok none => .error .noMode
  | .error e => .error e

end Mode

/-- One value for each mode. -/
structure PerMode (β : Type) where
  /-- The value for heating. -/
  heating : β
  /-- The value for cooling. -/
  cooling : β
  /-- The value for hot water. -/
  dhw : β
  /-- The value for the pool. -/
  pool : β
  deriving DecidableEq, Repr

namespace PerMode

variable {β γ : Type}

/-- The value for a mode. -/
def get (p : PerMode β) : Mode → β
  | .heating => p.heating
  | .cooling => p.cooling
  | .dhw => p.dhw
  | .pool => p.pool

/-- The values a function has for the modes. -/
def ofFn (f : Mode → β) : PerMode β :=
  ⟨f .heating, f .cooling, f .dhw, f .pool⟩

/-- A function applied to every value. -/
def map (f : β → γ) (p : PerMode β) : PerMode γ :=
  ⟨f p.heating, f p.cooling, f p.dhw, f p.pool⟩

/-- Modes with their values, in the order of `Mode.all`. -/
def toList (p : PerMode β) : List (Mode × β) :=
  Mode.all.map fun m => (m, p.get m)

@[simp] theorem get_ofFn (f : Mode → β) (m : Mode) : (ofFn f).get m = f m := by
  cases m <;> rfl

@[simp] theorem get_map (f : β → γ) (p : PerMode β) (m : Mode) :
    (p.map f).get m = f (p.get m) := by
  cases m <;> rfl

end PerMode

end HeatMeter
