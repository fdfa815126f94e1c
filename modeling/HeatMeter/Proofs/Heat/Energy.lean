/-
  HeatMeter.Proofs.Heat.Energy
  ────────────────────────────
  **THE ENERGY COUNTERS ARE SUMS OVER THE COUNTED POWERS.**

  A power `p` that is counted `ms` whole milliseconds after a power `q` of its kind adds
  to the counters of the kind

      (q + p) / 2 * (ms / 3600000)

  kWh.  A power of the other kind stands for `q = 0`; the first one and one that is not
  later add nothing.  So

      total     what the snapshot says, or zero, plus the increments of the kind in order
      daily     the same sum, begun anew at every counted power of another day
                than the one before

  The equalities hold for every scalar type, and so of floats bit for bit.
-/
import HeatMeter.Proofs.Heat.Counted
import HeatMeter.Proofs.Time.Instant

namespace HeatMeter

namespace EnergySnapshot

variable {α : Type}

/-- The energy ever of a kind. -/
def totalOf (s : EnergySnapshot α) : HeatKind → α
  | .heating => s.totalHeating
  | .cooling => s.totalCooling

/-- The energy of the day of a kind. -/
def dailyOf (s : EnergySnapshot α) : HeatKind → α
  | .heating => s.dailyHeating
  | .cooling => s.dailyCooling

end EnergySnapshot

namespace HeatCounter

variable {α : Type}

/-! ## §1. The sums. -/

/-- The day of the last counted power. -/
def lastDay (day : Date) (xs : List (Counted α)) : Date :=
  (xs.getLast?.map fun x => x.time.date).getD day

theorem lastDay_cons (day : Date) (x : Counted α) (xs : List (Counted α)) :
    lastDay day (x :: xs) = lastDay x.time.date xs := by
  unfold lastDay
  rw [List.getLast?_cons]
  cases xs.getLast? <;> rfl

variable [Scalar α]

/-- The energy that a power adds after the power counted before it, one increment or
none: the mean of the two powers over the hours between them. -/
def increment (before : Option (Counted α)) (x : Counted α) : List α :=
  match before with
  | none => []
  | some b =>
    let hours : α := Scalar.ofInt ((x.time.since b.time).tdiv 1000000) / Scalar.ofInt 3600000
    if 0 < hours then
      [((if b.kind = x.kind then b.power else 0) + x.power) / Scalar.ofInt 2 * hours]
    else []

theorem increment_some (b x : Counted α) :
    increment (some b) x
      = if 0 < (hoursOfSpan (x.time.since b.time) : α) then
          [trapezoid (if b.kind = x.kind then b.power else 0) x.power
            (hoursOfSpan (x.time.since b.time))]
        else [] :=
  rfl

/-- The increment if the power is of the given kind. -/
def incrementOf (k : HeatKind) (before : Option (Counted α)) (x : Counted α) : List α :=
  if x.kind = k then increment before x else []

/-- The increments of a kind, in order. -/
def increments (k : HeatKind) : Option (Counted α) → List (Counted α) → List α
  | _, [] => []
  | before, x :: rest => incrementOf k before x ++ increments k (some x) rest

/-- The energy of the day: the increments of a kind added to `e`, begun anew whenever
the day changes. -/
def dailyEnergy (k : HeatKind) : Option (Counted α) → Date → α → List (Counted α) → α
  | _, _, e, [] => e
  | before, day, e, x :: rest =>
    dailyEnergy k (some x) x.time.date
      ((incrementOf k before x).foldl (· + ·) (if x.time.date = day then e else 0)) rest

/-! ## §2. What the counter remembers of the powers counted. -/

/-- The counter remembers the power counted last, and it alone. -/
structure Remembers (c : HeatCounter α) (last : Option (Counted α)) : Prop where
  /-- The kind is that of the last power. -/
  kind : c.kind = last.map Counted.kind
  /-- The baseline is the time of the last power. -/
  baseline : c.baseline = last.map Counted.time
  /-- The power of its kind is the last one, that of the other kind is zero. -/
  power : ∀ x ∈ last, c.power = (ByKind.both 0).set x.kind x.power

theorem Remembers.gained {c : HeatCounter α} {last : Option (Counted α)}
    (h : c.Remembers last) (x : Counted α) : c.gained x = increment last x := by
  unfold HeatCounter.gained
  rw [h.baseline]
  cases last with
  | none => rfl
  | some b =>
    -- the power of the other kind is zero, so the counter starts from `b` or from zero
    have hpower : c.power.get x.kind = if b.kind = x.kind then b.power else 0 := by
      rw [h.power b rfl]
      by_cases hkind : b.kind = x.kind
      · rw [if_pos hkind, hkind, ByKind.get_set_self]
      · rw [if_neg hkind, ByKind.get_set_of_ne _ (Ne.symm hkind), ByKind.get_both]
    rw [increment_some, ← hpower]
    rfl

theorem Remembers.of_locked {c : HeatCounter α} {last : Option (Counted α)}
    (h : c.Remembers last) (locked : Bool) : Remembers { c with locked := locked } last :=
  ⟨h.kind, h.baseline, h.power⟩

section

variable {c : HeatCounter α} {i : HeatInput α} {x : Counted α}

theorem remembers_take (hx : counted? c.kind c.locked i = some x) :
    (c.take i).Remembers (some x) := by
  rw [take_of_some hx, record_eq]
  refine ⟨rfl, rfl, ?_⟩
  intro y hy
  rw [Option.mem_some_iff] at hy
  rw [← hy]

/-- The next powers are counted after the kind of this one and its lock. -/
theorem counted_take (hx : counted? c.kind c.locked i = some x) (rest : List (HeatInput α)) :
    counted c.kind c.locked (i :: rest)
      = x :: counted (c.take i).kind (c.take i).locked rest := by
  rw [counted, hx, take_of_some hx]
  rfl

/-- Counting a power adds its increment to the total of a kind. -/
theorem Remembers.total_take {last : Option (Counted α)} (h : c.Remembers last)
    (hx : counted? c.kind c.locked i = some x) (k : HeatKind) :
    (c.take i).total.get k = (incrementOf k last x).foldl (· + ·) (c.total.get k) := by
  rw [take_of_some hx, record_eq]
  dsimp only
  unfold incrementOf
  by_cases hkind : x.kind = k
  · rw [if_pos hkind, h.gained, ← hkind, ByKind.get_set_self]
  · rw [if_neg hkind, ByKind.get_set_of_ne _ (Ne.symm hkind), List.foldl_nil]

/-- Counting a power adds its increment to the energy of the day, begun anew on another
day. -/
theorem Remembers.daily_take {last : Option (Counted α)} (h : c.Remembers last)
    (hx : counted? c.kind c.locked i = some x) (k : HeatKind) :
    (c.take i).daily.get k = (incrementOf k last x).foldl (· + ·)
      ((c.dailyOn x.time).get k) := by
  rw [take_of_some hx, record_eq]
  dsimp only
  unfold incrementOf
  by_cases hkind : x.kind = k
  · rw [if_pos hkind, h.gained, ← hkind, ByKind.get_set_self]
  · rw [if_neg hkind, ByKind.get_set_of_ne _ (Ne.symm hkind), List.foldl_nil]

theorem resetDate_take (hx : counted? c.kind c.locked i = some x) :
    (c.take i).resetDate = x.time.date := by
  rw [take_of_some hx, record_eq]

end

/-! ## §3. Whole runs. -/

/-- A run of a counter that remembers `last` adds the increments of the powers that
the inputs count. -/
structure Adds (c : HeatCounter α) (last : Option (Counted α)) (inputs : List (HeatInput α)) :
    Prop where
  /-- The totals grow by the increments. -/
  total : ∀ k, (c.run inputs).total.get k
    = (increments k last (counted c.kind c.locked inputs)).foldl (· + ·) (c.total.get k)
  /-- The energies of the day grow by them too, and begin anew with the day. -/
  daily : ∀ k, (c.run inputs).daily.get k
    = dailyEnergy k last c.resetDate (c.daily.get k) (counted c.kind c.locked inputs)
  /-- The day is that of the last power counted. -/
  resetDate : (c.run inputs).resetDate = lastDay c.resetDate (counted c.kind c.locked inputs)

/-- **Every run adds the increments of the powers that it counts.** -/
theorem Remembers.adds {c : HeatCounter α} {last : Option (Counted α)} (h : c.Remembers last)
    (inputs : List (HeatInput α)) : c.Adds last inputs := by
  induction inputs generalizing c last with
  | nil => exact ⟨fun k => rfl, fun k => rfl, rfl⟩
  | cons i rest ih =>
    have hrun : c.run (i :: rest) = (c.take i).run rest := rfl
    cases hcounted : counted? c.kind c.locked i with
    | none =>
      -- only the lock can move
      have hlist : counted c.kind c.locked (i :: rest)
          = counted c.kind (lockedAfter c.kind c.locked i) rest := by
        rw [counted, hcounted]
      have hrest := ih (h.of_locked (lockedAfter c.kind c.locked i))
      rw [← take_of_none hcounted] at hrest
      refine ⟨?_, ?_, ?_⟩
      · intro k
        rw [hrun, hrest.total, hlist, take_of_none hcounted]
      · intro k
        rw [hrun, hrest.daily, hlist, take_of_none hcounted]
      · rw [hrun, hrest.resetDate, hlist, take_of_none hcounted]
    | some x =>
      -- one increment, and the rest begins after `x`
      have hlist := counted_take hcounted rest
      have hrest := ih (remembers_take hcounted)
      refine ⟨?_, ?_, ?_⟩
      · intro k
        rw [hrun, hrest.total, hlist, h.total_take hcounted, increments, List.foldl_append]
      · intro k
        rw [hrun, hrest.daily, hlist, h.daily_take hcounted, resetDate_take hcounted,
          dailyEnergy, get_dailyOn]
      · rw [hrun, hrest.resetDate, hlist, resetDate_take hcounted, lastDay_cons]

/-! ## §4. From a snapshot, or from zero. -/

/-- A counter that goes on from a snapshot, if there is one. -/
def beginning (kept : Option (EnergySnapshot α)) (now : Instant) : HeatCounter α :=
  match kept with
  | none => startingAt now
  | some s => restore s now

/-- A counter that has counted nothing remembers nothing and is not locked. -/
theorem beginning_remembers (kept : Option (EnergySnapshot α)) (now : Instant) :
    (beginning kept now).Remembers none ∧ (beginning kept now).locked = false := by
  cases kept with
  | none => exact ⟨⟨rfl, rfl, by simp⟩, rfl⟩
  | some s => exact ⟨⟨rfl, rfl, by simp⟩, rfl⟩

section

variable (kept : Option (EnergySnapshot α)) (now : Instant) (k : HeatKind)

theorem total_beginning : (beginning kept now).total.get k = kept.elim 0 (·.totalOf k) := by
  cases kept with
  | none => exact ByKind.get_both 0 k
  | some s => cases k <;> rfl

theorem daily_beginning : (beginning kept now).daily.get k = kept.elim 0 (·.dailyOf k) := by
  cases kept with
  | none => exact ByKind.get_both 0 k
  | some s => cases k <;> rfl

theorem resetDate_beginning :
    (beginning kept now).resetDate = (kept.bind (·.resetDate)).getD now.date := by
  cases kept <;> rfl

end

/-- **The counters are the sums over the counted powers**, from every start and over
every sequence of inputs. -/
theorem run_beginning (kept : Option (EnergySnapshot α)) (now : Instant)
    (inputs : List (HeatInput α)) (k : HeatKind) :
    ((beginning kept now).run inputs).total.get k
        = (increments k none (counted none false inputs)).foldl (· + ·)
          (kept.elim 0 (·.totalOf k))
      ∧ ((beginning kept now).run inputs).daily.get k
        = dailyEnergy k none ((kept.bind (·.resetDate)).getD now.date)
          (kept.elim 0 (·.dailyOf k)) (counted none false inputs)
      ∧ ((beginning kept now).run inputs).resetDate
        = lastDay ((kept.bind (·.resetDate)).getD now.date) (counted none false inputs) := by
  obtain ⟨hremembers, hlocked⟩ := beginning_remembers kept now
  have hadds := hremembers.adds inputs
  have hlist : counted (beginning kept now).kind (beginning kept now).locked inputs
      = counted none false inputs := by
    rw [hremembers.kind, hlocked]
    rfl
  refine ⟨?_, ?_, ?_⟩
  · rw [hadds.total, hlist, total_beginning]
  · rw [hadds.daily, hlist, resetDate_beginning, daily_beginning]
  · rw [hadds.resetDate, hlist, resetDate_beginning]

/-- The instant so many seconds into the second day counted. -/
def ofSecondDay (second : Nat) : Instant :=
  ⟨86400 + (second % 86400 : Nat), 0, by omega, Instant.firstDay_nanos_lt⟩

/-- Counters kept on the first day. -/
def keptInTheEvening : EnergySnapshot Float where
  dailyHeating := 1
  totalHeating := 100
  dailyCooling := 0.5
  totalCooling := 20
  resetDate := some (Instant.ofFirstDay 0).date

/-- A unit that heats in the last hour of the day, then makes hot water, and cools from
midnight until it stops.  The cold left in the pipes is held back by the lock; the update that
takes the lock off comes ten minutes before the one that it follows. -/
def overMidnight : List (HeatInput Float) :=
  [⟨⟨4, 0⟩, true, some .heating, .ofFirstDay 82800⟩,
    ⟨⟨6, 0⟩, true, some .heating, .ofFirstDay 84600⟩,
    ⟨⟨8, -2⟩, true, some .dhw, .ofFirstDay 85500⟩,
    ⟨⟨0, 2⟩, true, some .cooling, ofSecondDay 0⟩,
    ⟨⟨0, 0⟩, false, none, ofSecondDay 900⟩,
    ⟨⟨0, 3⟩, false, none, ofSecondDay 1800⟩,
    ⟨⟨4, 0⟩, true, some .heating, ofSecondDay 1200⟩,
    ⟨⟨4, 0⟩, true, some .heating, ofSecondDay 3000⟩]

/-- Over that night the unit heats for 6 kWh, 2 of them after midnight, and cools for half a
kilowatt hour. -/
theorem run_beginning_of_overMidnight :
    increments .heating none (counted none false overMidnight) = [2.5, 1.5, 2]
      ∧ increments .cooling none (counted none false overMidnight) = [0.25, 0.25, 0]
      ∧ ((beginning (some keptInTheEvening) (.ofFirstDay 82800)).run overMidnight).total
        = ⟨106, 20.5⟩
      ∧ ((beginning (some keptInTheEvening) (.ofFirstDay 82800)).run overMidnight).daily
        = ⟨2, 0.5⟩
      ∧ ((beginning (some keptInTheEvening) (.ofFirstDay 82800)).run overMidnight).resetDate.day
        = 1 := by
  have hheating : increments .heating none (counted none false overMidnight) = [2.5, 1.5, 2] := by
    decide +kernel
  have hcooling : increments .cooling none (counted none false overMidnight)
      = [0.25, 0.25, 0] := by
    decide +kernel
  obtain ⟨htotalHeating, hdailyHeating, hday⟩ := run_beginning (some keptInTheEvening)
    (.ofFirstDay 82800) overMidnight .heating
  obtain ⟨htotalCooling, hdailyCooling, -⟩ := run_beginning (some keptInTheEvening)
    (.ofFirstDay 82800) overMidnight .cooling
  rw [hheating] at htotalHeating
  rw [hcooling] at htotalCooling
  refine ⟨hheating, hcooling, ?_, ?_, ?_⟩
  · apply ByKind.ext_get
    rintro (_ | _)
    · exact htotalHeating.trans (by decide +kernel)
    · exact htotalCooling.trans (by decide +kernel)
  · apply ByKind.ext_get
    rintro (_ | _)
    · exact hdailyHeating.trans (by decide +kernel)
    · exact hdailyCooling.trans (by decide +kernel)
  · exact (congrArg Date.day hday).trans (by decide +kernel)

end HeatCounter

end HeatMeter
