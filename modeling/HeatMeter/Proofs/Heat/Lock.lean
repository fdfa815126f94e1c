/-
  HeatMeter.Proofs.Heat.Lock
  ──────────────────────────
  **WHERE THE LOCK OF A STOP LEAKS.**

  The lock is one flag and remembers no kind.  While the compressor rests it
  holds the kind counted last at zero and lets the other kind through; a power
  of the other kind becomes the kind counted last, and from then on the lock
  holds that one.  The kind held first can then be counted again, in the same stop.

      resting      what an update counts while the lock is on
      lastInStop   the power counted last in a stop
      Leaks        the updates that count a power above zero of a kind, or come
                   right after one that did

  At every other update of a stop the energies of the kind stay as they are, but
  for the daily one beginning anew on another day.
-/
import HeatMeter.Proofs.Heat.Energy
import HeatMeter.Proofs.Scalar.Float

namespace HeatMeter

/-- The kind that a kind is not. -/
def HeatKind.other : HeatKind → HeatKind
  | .heating => .cooling
  | .cooling => .heating

namespace HeatCounter

variable {α : Type} [Scalar α]

/-! ## §1. What an update of a stop counts. -/

/-- The power that an update counts while the lock holds the kind `k`. -/
def resting (k : HeatKind) (i : HeatInput α) : Counted α :=
  if 0 < (assign i.mode i.power).get k.other then
    ⟨k.other, (assign i.mode i.power).get k.other, i.time⟩
  else ⟨k, 0, i.time⟩

/-- With one kind at zero the other one is counted, if it is above zero. -/
theorem choose?_held [Scalar.Lawful α] (k : HeatKind) (p : ByKind α) (now : Instant) :
    choose? (some k) (p.set k 0) now
      = some (if 0 < p.get k.other then ⟨k.other, p.get k.other, now⟩ else ⟨k, 0, now⟩) := by
  -- the held kind shows a zero, which is not above zero
  have hzero : ¬ (0 : α) < 0 := Scalar.Lawful.irrefl 0
  unfold choose?
  cases k with
  | heating =>
    show (if (0 : α) < 0 then _ else if 0 < p.cooling then _ else _)
      = some (if 0 < p.cooling then _ else _)
    rw [if_neg hzero]
    by_cases hcooling : 0 < p.cooling
    · rw [if_pos hcooling, if_pos hcooling]
      rfl
    · rw [if_neg hcooling, if_neg hcooling]
      rfl
  | cooling =>
    show (if 0 < p.heating then _ else if (0 : α) < 0 then _ else _)
      = some (if 0 < p.heating then _ else _)
    by_cases hheating : 0 < p.heating
    · rw [if_pos hheating, if_pos hheating]
      rfl
    · rw [if_neg hheating, if_neg hzero, if_neg hheating]
      rfl

section

variable {k : HeatKind} {locked : Bool} {i : HeatInput α}

theorem lockedAfter_of_locked (hoff : i.running = false) :
    lockedAfter (some k) true i = true := by
  unfold lockedAfter gate
  rw [hoff]
  dsimp only
  rw [if_pos (Or.inl rfl)]

/-- An update that leaves the lock on counts a resting power. -/
theorem counted?_of_lockedAfter [Scalar.Lawful α] (hoff : i.running = false)
    (hlock : lockedAfter (some k) locked i = true) :
    counted? (some k) locked i = some (resting k i) := by
  unfold lockedAfter gate at hlock
  unfold counted? gate
  rw [hoff, ← assign_eq] at hlock ⊢
  dsimp only at hlock ⊢
  by_cases hshut : locked = true ∨ (assign i.mode i.power).get k ≤ 0
  · rw [if_pos hshut]
    exact choose?_held k _ _
  · -- an open gate leaves the lock off
    rw [if_neg hshut] at hlock
    exact absurd hlock Bool.false_ne_true

/-- What counts in a stop is above zero or is zero. -/
theorem power_resting : ¬ 0 < (resting k i).power → (resting k i).power = 0 := by
  unfold resting
  split
  next hpos => exact fun h => absurd hpos h
  next => exact fun _ => rfl

end

/-! ## §2. The counter during a stop. -/

/-- The power counted last in a stop whose first update finds the kind `m`. -/
def lastInStop (m : HeatKind) (e : HeatInput α) (rest : List (HeatInput α)) :
    Counted α :=
  rest.foldl (fun x i => resting x.kind i) (resting m e)

/-- The counter is locked, and the power that it remembers is one of a stop. -/
structure Stopped (c : HeatCounter α) (x : Counted α) : Prop where
  /-- The lock is on. -/
  locked : c.locked = true
  /-- The counter remembers the power. -/
  remembers : c.Remembers (some x)
  /-- The power is above zero or is zero. -/
  power : ¬ 0 < x.power → x.power = 0

theorem locked_take (c : HeatCounter α) (i : HeatInput α) :
    (c.take i).locked = lockedAfter c.kind c.locked i := by
  cases hcounted : counted? c.kind c.locked i with
  | none => rw [take_of_none hcounted]
  | some x => rw [take_of_some hcounted]

section

variable {c : HeatCounter α} {x : Counted α} {i : HeatInput α}

/-- A stop begins with the update that leaves the lock on. -/
theorem stopped_take [Scalar.Lawful α] {k : HeatKind} (hkind : c.kind = some k)
    (hoff : i.running = false) (hlock : (c.take i).locked = true) :
    (c.take i).Stopped (resting k i) := by
  -- the lock after the update is what `counted?_of_lockedAfter` asks for
  have hafter : lockedAfter (some k) c.locked i = true := by
    rw [← hkind, ← locked_take]
    exact hlock
  have hcounted : counted? c.kind c.locked i = some (resting k i) := by
    rw [hkind]
    exact counted?_of_lockedAfter hoff hafter
  exact ⟨hlock, remembers_take hcounted, power_resting⟩

theorem Stopped.counted? [Scalar.Lawful α] (h : c.Stopped x) (hoff : i.running = false) :
    HeatCounter.counted? c.kind c.locked i = some (resting x.kind i) := by
  rw [h.remembers.kind, h.locked]
  exact counted?_of_lockedAfter hoff (lockedAfter_of_locked hoff)

/-- **A stop goes on until the compressor runs.** -/
theorem Stopped.take [Scalar.Lawful α] (h : c.Stopped x) (hoff : i.running = false) :
    (c.take i).Stopped (resting x.kind i) := by
  refine ⟨?_, remembers_take (h.counted? hoff), power_resting⟩
  rw [locked_take, h.remembers.kind, h.locked]
  exact lockedAfter_of_locked hoff

theorem Stopped.run [Scalar.Lawful α] (h : c.Stopped x) {rest : List (HeatInput α)}
    (hoff : ∀ i ∈ rest, i.running = false) :
    (c.run rest).Stopped (rest.foldl (fun x i => resting x.kind i) x) := by
  induction rest generalizing c x with
  | nil => exact h
  | cons i rest ih =>
    rw [List.forall_mem_cons] at hoff
    exact ih (h.take hoff.1) hoff.2

end

/-! ## §3. What leaks through the lock. -/

/-- An update raises an energy of a kind, that of the day or the total. -/
def Rises (c : HeatCounter α) (m : HeatKind) (i : HeatInput α) : Prop :=
  c.total.get m < (c.take i).total.get m ∨ c.daily.get m < (c.take i).daily.get m

instance (c : HeatCounter α) (m : HeatKind) (i : HeatInput α) : Decidable (c.Rises m i) :=
  inferInstanceAs (Decidable (_ ∨ _))

/-- From a power to the next one time has passed, the next one is of the kind `m`, and
it or the one before is a power of `m` above zero. -/
def Leaks (m : HeatKind) (x y : Counted α) : Prop :=
  y.kind = m ∧ (0 < y.power ∨ (x.kind = m ∧ 0 < x.power))
    ∧ 0 < (hoursOfSpan (y.time.since x.time) : α)

instance (m : HeatKind) (x y : Counted α) : Decidable (Leaks m x y) :=
  inferInstanceAs (Decidable (_ ∧ _))

/-- The energy of the kind `m` from a power to the next one. -/
def leak (m : HeatKind) (x y : Counted α) : α :=
  trapezoid (if x.kind = m then x.power else 0) y.power (hoursOfSpan (y.time.since x.time))

section

variable {m : HeatKind} {x y : Counted α}

theorem foldl_incrementOf_of_leaks (h : Leaks m x y) (e : α) :
    (incrementOf m (some x) y).foldl (· + ·) e = e + leak m x y := by
  obtain ⟨hkind, -, hforward⟩ := h
  unfold incrementOf leak
  rw [increment_some, if_pos hkind, if_pos hforward, hkind]
  rfl

/-- What does not leak changes no comparison: it is nothing, or a zero. -/
theorem lt_foldl_incrementOf [Scalar.Lawful α] (h : ¬ Leaks m x y)
    (hx : ¬ 0 < x.power → x.power = 0) (hy : ¬ 0 < y.power → y.power = 0) (z e : α) :
    z < (incrementOf m (some x) y).foldl (· + ·) e ↔ z < e := by
  unfold incrementOf
  rw [increment_some]
  by_cases hkind : y.kind = m
  · rw [if_pos hkind]
    -- of the kind and later: both powers are zero, for it does not leak
    by_cases hforward : 0 < (hoursOfSpan (y.time.since x.time) : α)
    · rw [if_pos hforward, hkind, List.foldl_cons, List.foldl_nil]
      have hnext : y.power = 0 := hy fun hpos => h ⟨hkind, .inl hpos, hforward⟩
      have hbefore : (if x.kind = m then x.power else 0) = 0 := by
        by_cases hsame : x.kind = m
        · rw [if_pos hsame]
          exact hx fun hpos => h ⟨hkind, .inr ⟨hsame, hpos⟩, hforward⟩
        · rw [if_neg hsame]
      rw [hbefore, hnext]
      exact Scalar.Lawful.idle z e y.time x.time
    · rw [if_neg hforward, List.foldl_nil]
  · rw [if_neg hkind, List.foldl_nil]

end

/-! ## §4. When a locked kind gains energy again. -/

/-- While the other kind shows no power the kind counted last is the one locked first, at
zero. -/
theorem lastInStop_of_silent {m : HeatKind} {e : HeatInput α} {rest : List (HeatInput α)}
    (hsilent : ∀ j ∈ e :: rest, ¬ 0 < (assign j.mode j.power).get m.other) :
    (lastInStop m e rest).kind = m ∧ (lastInStop m e rest).power = 0 := by
  -- one more update keeps a zero of the kind
  have hstep : ∀ j : HeatInput α, ¬ 0 < (assign j.mode j.power).get m.other →
      resting m j = ⟨m, 0, j.time⟩ := by
    intro j hj
    unfold resting
    rw [if_neg hj]
  rw [List.forall_mem_cons] at hsilent
  obtain ⟨hfirst, hrest⟩ := hsilent
  unfold lastInStop
  rw [hstep e hfirst]
  -- the times of the zeros differ from update to update
  generalize e.time = now
  induction rest generalizing now with
  | nil => exact ⟨rfl, rfl⟩
  | cons j rest ih =>
    rw [List.forall_mem_cons] at hrest
    rw [List.foldl_cons, hstep j hrest.1]
    exact ih hrest.2 j.time

section

variable [Scalar.Lawful α] {c : HeatCounter α} {m : HeatKind}

/-- An update of a stop raises an energy of a kind where the kind leaks by an amount that
shows, or where the day changes from an energy below zero. -/
theorem Stopped.rises_iff {x : Counted α} {i : HeatInput α} (h : c.Stopped x)
    (hoff : i.running = false) (m : HeatKind) :
    c.Rises m i ↔
      (Leaks m x (resting x.kind i)
        ∧ (c.total.get m < c.total.get m + leak m x (resting x.kind i)
          ∨ c.daily.get m < (c.dailyOn i.time).get m + leak m x (resting x.kind i)))
      ∨ (¬ Leaks m x (resting x.kind i) ∧ i.time.date ≠ c.resetDate ∧ c.daily.get m < 0) := by
  have hcounted : HeatCounter.counted? c.kind c.locked i = some (resting x.kind i) :=
    h.counted? hoff
  have htime : (resting x.kind i).time = i.time := time_of_counted? hcounted
  unfold Rises
  rw [h.remembers.total_take hcounted, h.remembers.daily_take hcounted, htime]
  -- a leak is added to both energies; without one only a new day moves the daily one
  by_cases hleaks : Leaks m x (resting x.kind i)
  · rw [foldl_incrementOf_of_leaks hleaks, foldl_incrementOf_of_leaks hleaks]
    constructor
    · intro hrises
      exact .inl ⟨hleaks, hrises⟩
    · rintro (⟨-, hrises⟩ | ⟨hnone, -⟩)
      · exact hrises
      · exact absurd hleaks hnone
  · rw [lt_foldl_incrementOf hleaks h.power power_resting,
      lt_foldl_incrementOf hleaks h.power power_resting, get_dailyOn]
    constructor
    · rintro (htotal | hdaily)
      · exact absurd htotal (Scalar.Lawful.irrefl _)
      · by_cases hsame : i.time.date = c.resetDate
        · rw [if_pos hsame] at hdaily
          exact absurd hdaily (Scalar.Lawful.irrefl _)
        · rw [if_neg hsame] at hdaily
          exact .inr ⟨hleaks, hsame, hdaily⟩
    · rintro (⟨hsome, -⟩ | ⟨-, hday, hdaily⟩)
      · exact absurd hsome hleaks
      · right
        rw [if_neg hday]
        exact hdaily

theorem stopped_run {e : HeatInput α} {rest : List (HeatInput α)} (hkind : c.kind = some m)
    (hlock : (c.take e).locked = true) (hoff : ∀ j ∈ e :: rest, j.running = false) :
    (c.run (e :: rest)).Stopped (lastInStop m e rest) := by
  rw [List.forall_mem_cons] at hoff
  exact (stopped_take hkind hoff.1 hlock).run hoff.2

/-- **The lock holds as long as the other kind is silent**: no update of the stop raises
the total, nor the energy of the day unless it starts below zero. -/
theorem not_rises_of_silent {e i : HeatInput α} {rest : List (HeatInput α)}
    (hkind : c.kind = some m) (hlock : (c.take e).locked = true)
    (hoff : ∀ j ∈ e :: (rest ++ [i]), j.running = false)
    (hsilent : ∀ j ∈ e :: (rest ++ [i]), ¬ 0 < (assign j.mode j.power).get m.other)
    (hdaily : ¬ (c.run (e :: rest)).daily.get m < 0) : ¬ (c.run (e :: rest)).Rises m i := by
  rw [← List.cons_append, List.forall_mem_append] at hoff hsilent
  obtain ⟨hlast, hzero⟩ := lastInStop_of_silent hsilent.1
  have hstopped := stopped_run hkind hlock hoff.1
  have hnext : resting (lastInStop m e rest).kind i = ⟨m, 0, i.time⟩ := by
    unfold resting
    rw [hlast, if_neg (hsilent.2 i (List.mem_singleton_self i))]
  have hnone : ¬ (0 : α) < 0 := Scalar.Lawful.irrefl 0
  rw [hstopped.rises_iff (hoff.2 i (List.mem_singleton_self i)), hnext]
  rintro (⟨⟨-, hpositive, -⟩, -⟩ | ⟨-, -, hbelow⟩)
  · rcases hpositive with hnow | ⟨-, hbefore⟩
    · exact hnone hnow
    · rw [hzero] at hbefore
      exact hnone hbefore
  · exact hdaily hbelow

end

/-- The powers of no mode, so many seconds into the first day. -/
def residual (second : Nat) (heating cooling : Float) (running : Bool) :
    HeatInput Float :=
  ⟨⟨heating, cooling⟩, running, none, .ofFirstDay second⟩

/-- A counter that has heated. -/
def heated : HeatCounter Float :=
  (startingAt (.ofFirstDay 0)).run [residual 0 10 0 true]

/-- **When a kind that a stop has locked gains energy again**, for every counter, from the
update that leaves the lock on to the next one with the compressor running. -/
theorem rises_in_stop_iff (c : HeatCounter Float) (m : HeatKind) (e : HeatInput Float)
    (rest : List (HeatInput Float)) (i : HeatInput Float) (hkind : c.kind = some m)
    (hlock : (c.take e).locked = true)
    (hoff : ∀ j ∈ e :: (rest ++ [i]), j.running = false) :
    (c.run (e :: rest)).Rises m i ↔
      (Leaks m (lastInStop m e rest) (lastInStop m e (rest ++ [i]))
        ∧ ((c.run (e :: rest)).total.get m < (c.run (e :: rest)).total.get m
              + leak m (lastInStop m e rest) (lastInStop m e (rest ++ [i]))
          ∨ (c.run (e :: rest)).daily.get m < ((c.run (e :: rest)).dailyOn i.time).get m
              + leak m (lastInStop m e rest) (lastInStop m e (rest ++ [i]))))
      ∨ (¬ Leaks m (lastInStop m e rest) (lastInStop m e (rest ++ [i]))
        ∧ i.time.date ≠ (c.run (e :: rest)).resetDate
        ∧ (c.run (e :: rest)).daily.get m < 0) := by
  -- the stop with one update more
  have hnext : lastInStop m e (rest ++ [i]) = resting (lastInStop m e rest).kind i := by
    unfold lastInStop
    rw [List.foldl_append]
    rfl
  rw [← List.cons_append, List.forall_mem_append] at hoff
  rw [hnext]
  exact (stopped_run hkind hlock hoff.1).rises_iff (hoff.2 i (List.mem_singleton_self i)) m

/-- In a stop of heating alone the heating stays locked. -/
theorem rises_in_heating_stop :
    ¬ (heated.run [residual 60 0 0 false]).Rises .heating (residual 120 2 0 false) := by
  rw [rises_in_stop_iff heated .heating (residual 60 0 0 false) [] (residual 120 2 0 false)
    (by decide +kernel) (by decide +kernel) (by decide)]
  decide +kernel

/-- **A stop that switches from heating to cooling and back gains heating energy under the
lock.** -/
theorem rises_in_switching_stop :
    heated.kind = some .heating ∧ (heated.take (residual 60 0 0 false)).locked = true
      ∧ (heated.run [residual 60 0 0 false, residual 120 0 3 false]).locked = true
      ∧ (heated.run [residual 60 0 0 false, residual 120 0 3 false]).Rises .heating
          (residual 180 2 0 false) := by
  decide +kernel

end HeatCounter

end HeatMeter
