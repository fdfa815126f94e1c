/-
  HeatMeter.Heat
  ──────────────
  **HEATING AND COOLING ENERGY, DAILY AND IN TOTAL.**

  Each update brings a heating and a cooling power.  At most one of them counts:

      assign   hot water and pool circuits only heat, so a cooling power counts
               as heating there
      lock     while the compressor rests, the first power of the current kind
               that is not above zero locks that kind: until the compressor runs
               again its powers count as zero, so that the residual heat of a
               stopped circuit is not counted twice
      advance  heating counts if it is above zero, else cooling, else a zero of
               the current kind, which moves the time baseline along

  Energy is integrated from the last counted power of the same kind by the
  trapezoid rule, and only forwards in time.  On the first counted power of a
  new day the daily counters restart at zero.
-/
import HeatMeter.Clock
import HeatMeter.Cop.Sample
import HeatMeter.Mode

namespace HeatMeter

/-- A heating and a cooling quantity. -/
structure ByKind (β : Type) where
  /-- The heating quantity. -/
  heating : β
  /-- The cooling quantity. -/
  cooling : β
  deriving DecidableEq, Repr

namespace ByKind

variable {β : Type}

/-- The quantity of a kind. -/
def get (p : ByKind β) : HeatKind → β
  | .heating => p.heating
  | .cooling => p.cooling

/-- The quantities with that of one kind replaced. -/
def set (p : ByKind β) (k : HeatKind) (x : β) : ByKind β :=
  match k with
  | .heating => { p with heating := x }
  | .cooling => { p with cooling := x }

/-- One quantity for both kinds. -/
def both (x : β) : ByKind β := ⟨x, x⟩

end ByKind

/-- Energy counters as they are kept across restarts, kWh. -/
structure EnergySnapshot (α : Type) where
  /-- Heating energy of the day. -/
  dailyHeating : α
  /-- Heating energy ever. -/
  totalHeating : α
  /-- Cooling energy of the day. -/
  dailyCooling : α
  /-- Cooling energy ever. -/
  totalCooling : α
  /-- The day the daily counters belong to. -/
  resetDate : Option Date
  deriving DecidableEq, Repr

/-- Counters at zero, of no particular day. -/
def EnergySnapshot.zero {α : Type} [Scalar α] : EnergySnapshot α :=
  ⟨0, 0, 0, 0, none⟩

/-- Heating and cooling energy with what is needed to count on. -/
structure HeatCounter (α : Type) where
  /-- Energy of the day, kWh. -/
  daily : ByKind α
  /-- Energy ever, kWh. -/
  total : ByKind α
  /-- The powers last counted, kW; zero for the kind that is not current. -/
  power : ByKind α
  /-- When power was last counted. -/
  baseline : Option Instant
  /-- When the daily counters started. -/
  dayStart : Instant
  /-- The day the daily counters belong to. -/
  resetDate : Date
  /-- Whether the current kind is locked until the compressor runs. -/
  locked : Bool
  /-- The kind last counted. -/
  kind : Option HeatKind
  deriving DecidableEq, Repr

namespace HeatCounter

variable {α : Type} [Scalar α]

/-- Counters that start at zero at an instant. -/
def startingAt (now : Instant) : HeatCounter α where
  daily := .both 0
  total := .both 0
  power := .both 0
  baseline := none
  dayStart := now
  resetDate := now.date
  locked := false
  kind := none

/-- Counters that go on from a snapshot. -/
def restore (s : EnergySnapshot α) (now : Instant) : HeatCounter α :=
  { startingAt now with
    daily := ⟨s.dailyHeating, s.dailyCooling⟩
    total := ⟨s.totalHeating, s.totalCooling⟩
    resetDate := s.resetDate.getD now.date }

/-- The counters to keep across a restart. -/
def snapshot (c : HeatCounter α) : EnergySnapshot α where
  dailyHeating := c.daily.heating
  totalHeating := c.total.heating
  dailyCooling := c.daily.cooling
  totalCooling := c.total.cooling
  resetDate := some c.resetDate

/-- Restart the daily counters if `now` is on another day than they are. -/
def rollOver (c : HeatCounter α) (now : Instant) : HeatCounter α :=
  if now.date = c.resetDate then c
  else { c with daily := .both 0, dayStart := now, resetDate := now.date }

/-- Count the energy of one kind since the baseline, up to a power at `now`. -/
def accrue (c : HeatCounter α) (power : α) (k : HeatKind) (now : Instant) : HeatCounter α :=
  match c.baseline with
  | none => c
  | some last =>
    let hours : α := hoursOfSpan (now.since last)
    if 0 < hours then
      let energy := trapezoid (c.power.get k) power hours
      { c with
        daily := c.daily.set k (c.daily.get k + energy)
        total := c.total.set k (c.total.get k + energy) }
    else c

/-- Count a power of one kind at `now` and move the baseline there. -/
def count (c : HeatCounter α) (power : α) (k : HeatKind) (now : Instant) : HeatCounter α :=
  let c := (c.rollOver now).accrue power k now
  { c with baseline := some now, power := c.power.set k power }

/-- The powers as the mode assigns them. -/
def assign (mode : Option Mode) (p : ByKind α) : ByKind α :=
  match mode with
  | some m => if m.alwaysHeats then ⟨p.heating + p.cooling, 0⟩ else p
  | none => p

/-- The lock and the powers that it lets through. -/
def lock (c : HeatCounter α) (running : Bool) (p : ByKind α) : HeatCounter α × ByKind α :=
  if running then ({ c with locked := false }, p)
  else
    match c.kind with
    | none => (c, p)
    | some k =>
      if c.locked ∨ p.get k ≤ 0 then ({ c with locked := true }, p.set k 0) else (c, p)

/-- Count the one power that counts. -/
def advance (c : HeatCounter α) (p : ByKind α) (now : Instant) : HeatCounter α :=
  if 0 < p.heating then
    let c := c.count p.heating .heating now
    { c with power := c.power.set .cooling 0, kind := some .heating }
  else if 0 < p.cooling then
    let c := c.count p.cooling .cooling now
    { c with power := c.power.set .heating 0, kind := some .cooling }
  else
    match c.kind with
    | some k => { c.count 0 k now with power := .both 0 }
    | none => c

/-- Take in a heating and a cooling power at `now`. -/
def update (c : HeatCounter α) (p : ByKind α) (running : Bool) (mode : Option Mode)
    (now : Instant) : HeatCounter α :=
  let (c, p) := c.lock running (assign mode p)
  c.advance p now

end HeatCounter

end HeatMeter
