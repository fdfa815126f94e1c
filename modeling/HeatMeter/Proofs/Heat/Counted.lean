/-
  HeatMeter.Proofs.Heat.Counted
  ─────────────────────────────
  **WHICH POWER AN UPDATE COUNTS, AND ALL THAT IT CHANGES.**

  An update counts at most one power.  Which one is decided before any energy is:

      assigned  the powers as the mode assigns them
      gate      the powers that the lock lets through
      choose?   heating above zero, else cooling above zero, else a zero of the
                kind counted last, none where no kind was ever counted

  `counted?` is the three in a row and reads nothing of the counter but its lock and
  its last kind; none of the three is written with a step of the counter.  `take_of_none`
  and `take_of_some` say what an update does in terms of it; no later proof looks into an
  update again.
-/
import HeatMeter.Heat

namespace HeatMeter

/-- What an update of the counter is given. -/
structure HeatInput (α : Type) where
  /-- The heating and the cooling power, kW. -/
  power : ByKind α
  /-- Whether the compressor runs. -/
  running : Bool
  /-- The mode reported. -/
  mode : Option Mode
  /-- When the powers were measured. -/
  time : Instant
  deriving DecidableEq, Repr

/-- A power that counts. -/
structure Counted (α : Type) where
  /-- Its kind. -/
  kind : HeatKind
  /-- The power, kW. -/
  power : α
  /-- When it was measured. -/
  time : Instant
  deriving DecidableEq, Repr

namespace ByKind

variable {β : Type}

@[simp] theorem get_both (x : β) (k : HeatKind) : (both x).get k = x := by
  cases k <;> rfl

@[simp] theorem get_set_self (p : ByKind β) (k : HeatKind) (x : β) : (p.set k x).get k = x := by
  cases k <;> rfl

@[simp] theorem set_get (p : ByKind β) (k : HeatKind) : p.set k (p.get k) = p := by
  cases k <;> rfl

theorem get_set_of_ne (p : ByKind β) {j k : HeatKind} (h : j ≠ k) (x : β) :
    (p.set k x).get j = p.get j := by
  cases j <;> cases k <;> first | rfl | exact absurd rfl h

theorem ext_get {p q : ByKind β} (h : ∀ k, p.get k = q.get k) : p = q := by
  obtain ⟨heating, cooling⟩ := p
  obtain ⟨heating', cooling'⟩ := q
  have hheating : heating = heating' := h .heating
  have hcooling : cooling = cooling' := h .cooling
  rw [hheating, hcooling]

end ByKind

/-- The powers of an input as its mode assigns them: hot water and pools are only ever
heated, so their cooling power is heating. -/
def HeatInput.assigned {α : Type} [Scalar α] (i : HeatInput α) : ByKind α :=
  match i.mode with
  | some .dhw | some .pool => ⟨i.power.heating + i.power.cooling, 0⟩
  | _ => i.power

namespace HeatCounter

variable {α : Type} [Scalar α]

/-! ## §1. Which power counts. -/

/-- The lock after an update, and the powers that it lets through. -/
def gate (kind : Option HeatKind) (locked running : Bool) (p : ByKind α) :
    Bool × ByKind α :=
  match running, kind with
  | true, _ => (false, p)
  | false, none => (locked, p)
  | false, some k => if locked ∨ p.get k ≤ 0 then (true, p.set k 0) else (false, p)

/-- The one of two powers that counts. -/
def choose? (kind : Option HeatKind) (p : ByKind α) (now : Instant) : Option (Counted α) :=
  if 0 < p.heating then some ⟨.heating, p.heating, now⟩
  else if 0 < p.cooling then some ⟨.cooling, p.cooling, now⟩
  else kind.map fun k => ⟨k, 0, now⟩

/-- Whether the counter is locked after an input. -/
def lockedAfter (kind : Option HeatKind) (locked : Bool) (i : HeatInput α) : Bool :=
  (gate kind locked i.running i.assigned).1

/-- The power that an input counts. -/
def counted? (kind : Option HeatKind) (locked : Bool) (i : HeatInput α) :
    Option (Counted α) :=
  choose? kind (gate kind locked i.running i.assigned).2 i.time

/-- The powers that inputs count, one after another. -/
def counted : Option HeatKind → Bool → List (HeatInput α) → List (Counted α)
  | _, _, [] => []
  | kind, locked, i :: rest =>
    match counted? kind locked i with
    | none => counted kind (lockedAfter kind locked i) rest
    | some x => x :: counted (some x.kind) (lockedAfter kind locked i) rest

theorem time_of_counted? {kind : Option HeatKind} {locked : Bool} {i : HeatInput α}
    {x : Counted α} (h : counted? kind locked i = some x) : x.time = i.time := by
  unfold counted? choose? at h
  split at h
  · injection h with h
    rw [← h]
  · split at h
    · injection h with h
      rw [← h]
    · obtain ⟨k, -, rfl⟩ := Option.map_eq_some_iff.1 h
      rfl

/-! ## §2. What an update changes. -/

/-- The counter after an input. -/
def take (c : HeatCounter α) (i : HeatInput α) : HeatCounter α :=
  c.update i.power i.running i.mode i.time

/-- The counter after inputs. -/
def run (c : HeatCounter α) (inputs : List (HeatInput α)) : HeatCounter α :=
  inputs.foldl take c

/-- The counter with a power counted. -/
def record (c : HeatCounter α) (x : Counted α) : HeatCounter α :=
  { c.count x.power x.kind x.time with
    power := (ByKind.both 0).set x.kind x.power
    kind := some x.kind }

/-- The energy from the baseline up to a power, where time has passed. -/
def gained (c : HeatCounter α) (x : Counted α) : List α :=
  match c.baseline with
  | none => []
  | some last =>
    if 0 < (hoursOfSpan (x.time.since last) : α) then
      [trapezoid (c.power.get x.kind) x.power (hoursOfSpan (x.time.since last))]
    else []

/-- The mode of an update assigns the powers so. -/
theorem assign_eq (i : HeatInput α) : assign i.mode i.power = i.assigned := by
  unfold assign HeatInput.assigned
  match i.mode with
  | none => rfl
  | some .heating => rfl
  | some .cooling => rfl
  | some .dhw => rfl
  | some .pool => rfl

/-- The lock of an update is the gate; nothing else changes there. -/
theorem lock_eq (c : HeatCounter α) (running : Bool) (p : ByKind α) :
    c.lock running p
      = ({ c with locked := (gate c.kind c.locked running p).1 },
        (gate c.kind c.locked running p).2) := by
  obtain ⟨daily, total, power, baseline, dayStart, resetDate, locked, kind⟩ := c
  unfold lock gate
  cases running with
  | true => rfl
  | false =>
    cases kind with
    | none => rfl
    | some k =>
      dsimp only
      rw [if_neg (by decide)]
      by_cases hshut : locked = true ∨ p.get k ≤ 0
      · rw [if_pos hshut, if_pos hshut]
      · rw [if_neg hshut, if_neg hshut]
        -- the gate stays open only where the lock was off before
        have hopen : locked = false := Bool.eq_false_iff.2 fun h => hshut (.inl h)
        rw [hopen]

/-- The daily counters as an update at `now` finds them. -/
def dailyOn (c : HeatCounter α) (now : Instant) : ByKind α :=
  if now.date = c.resetDate then c.daily else .both 0

theorem get_dailyOn (c : HeatCounter α) (now : Instant) (k : HeatKind) :
    (c.dailyOn now).get k = if now.date = c.resetDate then c.daily.get k else 0 := by
  unfold dailyOn
  by_cases hsame : now.date = c.resetDate
  · rw [if_pos hsame, if_pos hsame]
  · rw [if_neg hsame, if_neg hsame, ByKind.get_both]

theorem rollOver_eq (c : HeatCounter α) (now : Instant) :
    c.rollOver now = { c with
      daily := c.dailyOn now
      dayStart := if now.date = c.resetDate then c.dayStart else now
      resetDate := now.date } := by
  unfold rollOver dailyOn
  by_cases hsame : now.date = c.resetDate
  · rw [if_pos hsame, if_pos hsame, if_pos hsame, hsame]
  · rw [if_neg hsame, if_neg hsame, if_neg hsame]

theorem accrue_eq (c : HeatCounter α) (x : Counted α) :
    c.accrue x.power x.kind x.time = { c with
      daily := c.daily.set x.kind ((c.gained x).foldl (· + ·) (c.daily.get x.kind))
      total := c.total.set x.kind ((c.gained x).foldl (· + ·) (c.total.get x.kind)) } := by
  unfold accrue gained
  cases hbaseline : c.baseline with
  | none => simp only [List.foldl_nil, ByKind.set_get, ← hbaseline]
  | some last =>
    dsimp only
    by_cases hforward : 0 < (hoursOfSpan (x.time.since last) : α)
    · rw [if_pos hforward, if_pos hforward]
      simp only [List.foldl_cons, List.foldl_nil, ← hbaseline]
    · rw [if_neg hforward, if_neg hforward]
      simp only [List.foldl_nil, ByKind.set_get, ← hbaseline]

/-- **All that recording a power changes.** -/
theorem record_eq (c : HeatCounter α) (x : Counted α) :
    c.record x =
      { daily := (c.dailyOn x.time).set x.kind
          ((c.gained x).foldl (· + ·) ((c.dailyOn x.time).get x.kind))
        total := c.total.set x.kind ((c.gained x).foldl (· + ·) (c.total.get x.kind))
        power := (ByKind.both 0).set x.kind x.power
        baseline := some x.time
        dayStart := if x.time.date = c.resetDate then c.dayStart else x.time
        resetDate := x.time.date
        locked := c.locked
        kind := some x.kind } := by
  rw [record, count, accrue_eq, rollOver_eq]
  rfl

theorem advance_eq (c : HeatCounter α) (p : ByKind α) (now : Instant) :
    c.advance p now = match choose? c.kind p now with
      | none => c
      | some x => c.record x := by
  unfold advance choose?
  by_cases hheating : 0 < p.heating
  · rw [if_pos hheating, if_pos hheating]
    rfl
  · rw [if_neg hheating, if_neg hheating]
    by_cases hcooling : 0 < p.cooling
    · rw [if_pos hcooling, if_pos hcooling]
      rfl
    · rw [if_neg hcooling, if_neg hcooling]
      cases hkind : c.kind with
      | none => rfl
      | some k =>
        -- a zero of the current kind leaves both powers zero and the kind as it is
        have hzero : (ByKind.both (0 : α)).set k 0 = .both 0 := by cases k <;> rfl
        have hkeep : (c.count 0 k now).kind = some k := by
          have hcount := accrue_eq (c.rollOver now) ⟨k, 0, now⟩
          rw [count, hcount, rollOver_eq]
          exact hkind
        show { c.count 0 k now with power := .both 0 } = c.record ⟨k, 0, now⟩
        rw [record]
        dsimp only
        rw [hzero, ← hkeep]

/-! ## §3. The two cases of an update. -/

/-- **An input that counts nothing can only move the lock.** -/
theorem take_of_none {c : HeatCounter α} {i : HeatInput α}
    (h : counted? c.kind c.locked i = none) :
    c.take i = { c with locked := lockedAfter c.kind c.locked i } := by
  unfold counted? at h
  unfold take update lockedAfter
  rw [assign_eq, lock_eq]
  dsimp only
  rw [advance_eq]
  dsimp only
  rw [h]

/-- **An input that counts a power records it**, under the lock of the gate. -/
theorem take_of_some {c : HeatCounter α} {i : HeatInput α} {x : Counted α}
    (h : counted? c.kind c.locked i = some x) :
    c.take i = { c.record x with locked := lockedAfter c.kind c.locked i } := by
  unfold counted? at h
  unfold take update lockedAfter
  rw [assign_eq, lock_eq]
  dsimp only
  rw [advance_eq]
  dsimp only
  rw [h]
  dsimp only
  rw [record_eq, record_eq]
  rfl

end HeatCounter

end HeatMeter
