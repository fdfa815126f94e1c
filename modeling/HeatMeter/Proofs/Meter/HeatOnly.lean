/-
  HeatMeter.Proofs.Meter.HeatOnly
  ───────────────────────────────
  **WHILE A UNIT MAKES HOT WATER NO COOLING IS COUNTED.**

  A mode that always heats turns a cooling power into heating, and the lock only ever
  puts a zero in the place of a power.  A cooling power above zero never reaches the
  counter, so a zero is counted as cooling only if cooling was counted before:

      counted    heating, if anything
      kept       the total of cooling, bit for bit
      begun anew the cooling of the day, and only where the day changes

  `OnlyHeats.take` is one update and `onlyHeats_after` a run, the clock moved at will.
-/
import HeatMeter.Proofs.Meter.Frozen

namespace HeatMeter

variable {α : Type}

/-- The mode reported is one that always heats. -/
def HeatInput.Heats (i : HeatInput α) : Prop :=
  ∃ m ∈ i.mode, m.alwaysHeats = true

/-- A reading that is metered is of a mode that always heats. -/
def MeterEvent.Heats : MeterEvent α → Prop
  | .poll r => ∃ m ∈ r.mode, m.alwaysHeats = true
  | _ => True

variable [Scalar α]

/-! ## §1. One update. -/

namespace HeatCounter

variable {c : HeatCounter α} {i : HeatInput α}

/-- Where the mode always heats no cooling power is left. -/
theorem cooling_assign (h : i.Heats) : (assign i.mode i.power).cooling = 0 := by
  obtain ⟨m, hmode, hheats⟩ := h
  rw [Option.mem_def] at hmode
  unfold assign
  rw [hmode]
  dsimp only
  rw [if_pos hheats]

/-- The gate lets no power through that was not there. -/
theorem cooling_gate (kind : Option HeatKind) (locked running : Bool) {p : ByKind α}
    (hp : p.cooling = 0) : (gate kind locked running p).2.cooling = 0 := by
  unfold gate
  split
  · exact hp
  · exact hp
  · split
    · -- one of the two powers is a zero now, and the cooling power was one before
      cases ‹HeatKind› with
      | heating => exact hp
      | cooling => rfl
    · exact hp

/-- **What is counted is heating.** -/
theorem kind_of_heats [Scalar.Lawful α] {kind : Option HeatKind} {locked : Bool}
    (hkind : kind ≠ some .cooling) (h : i.Heats) {x : Counted α}
    (hx : counted? kind locked i = some x) : x.kind = .heating := by
  have hcooling := cooling_gate kind locked i.running (cooling_assign h)
  have hzero : ¬ (0 : α) < 0 := Scalar.Lawful.irrefl 0
  unfold counted? choose? at hx
  rw [← assign_eq, hcooling, if_neg hzero] at hx
  split at hx
  next =>
    injection hx with hx
    rw [← hx]
  next =>
    -- a zero of the kind counted last
    obtain ⟨k, hk, rfl⟩ := Option.map_eq_some_iff.1 hx
    cases k with
    | heating => rfl
    | cooling => exact absurd hk hkind

/-- Cooling was not counted last, and its power is zero. -/
structure OnlyHeats (c : HeatCounter α) : Prop where
  kind : c.kind ≠ some .cooling
  power : c.power.cooling = 0

theorem onlyHeats_beginning (kept : Option (EnergySnapshot α)) (start : Instant) :
    (beginning kept start).OnlyHeats := by
  cases kept with
  | none => exact ⟨nofun, rfl⟩
  | some s => exact ⟨nofun, rfl⟩

/-- **One update** counts no cooling. -/
theorem OnlyHeats.take [Scalar.Lawful α] (hc : c.OnlyHeats) (h : i.Heats) :
    (c.take i).OnlyHeats := by
  cases hcounted : counted? c.kind c.locked i with
  | none =>
    rw [take_of_none hcounted]
    exact ⟨hc.kind, hc.power⟩
  | some x =>
    have hheating := kind_of_heats hc.kind h hcounted
    rw [take_of_some hcounted, record_eq, hheating]
    exact ⟨nofun, rfl⟩

/-- **One update keeps the cooling counters**, but begins that of the day anew on another
day. -/
theorem OnlyHeats.cooling_take [Scalar.Lawful α] (hc : c.OnlyHeats) (h : i.Heats) :
    (c.take i).total.cooling = c.total.cooling
      ∧ (c.take i).daily.cooling
        = if (c.take i).resetDate = c.resetDate then c.daily.cooling else 0 := by
  cases hcounted : counted? c.kind c.locked i with
  | none =>
    rw [take_of_none hcounted]
    exact ⟨rfl, (if_pos rfl).symm⟩
  | some x =>
    have hheating := kind_of_heats hc.kind h hcounted
    rw [take_of_some hcounted, record_eq, hheating]
    exact ⟨rfl, get_dailyOn c x.time .cooling⟩

end HeatCounter

/-! ## §2. Whole runs. -/

namespace Replay

variable [Scalar.Lawful α] {p : Replay α}

/-- One event counts no cooling. -/
theorem onlyHeats_take (h : p.meter.heat.OnlyHeats) {e : MeterEvent α} (he : e.Heats) :
    (p.take e).meter.heat.OnlyHeats
      ∧ (p.take e).meter.heat.total.cooling = p.meter.heat.total.cooling
      ∧ (p.take e).meter.heat.daily.cooling
        = if (p.take e).meter.heat.resetDate = p.meter.heat.resetDate
          then p.meter.heat.daily.cooling else 0 := by
  rcases heat_take_cases p e with hsame | ⟨r, powers, rfl, htake⟩
  · rw [hsame]
    exact ⟨h, rfl, (if_pos rfl).symm⟩
  · rw [htake]
    exact ⟨h.take he, h.cooling_take he⟩

/-- A run counts no cooling. -/
theorem onlyHeats_after (h : p.meter.heat.OnlyHeats) {events : List (MeterEvent α)}
    (hevents : ∀ e ∈ events, e.Heats) :
    (p.after events).meter.heat.OnlyHeats
      ∧ (p.after events).meter.heat.total.cooling = p.meter.heat.total.cooling := by
  induction events generalizing p with
  | nil => exact ⟨h, rfl⟩
  | cons e rest ih =>
    obtain ⟨honly, htotal, -⟩ := onlyHeats_take h (hevents e List.mem_cons_self)
    obtain ⟨hafter, hrest⟩ := ih honly fun x hx => hevents x (List.mem_cons_of_mem e hx)
    exact ⟨hafter, hrest.trans htotal⟩

/-- **A unit that makes hot water or heats a pool never counts cooling**: the total of
cooling is what the meter began with, the cooling power is zero, the kind counted last is
not cooling, and the cooling of the day changes only by beginning anew on another day. -/
theorem hotWater_counts_no_cooling (s : Settings Float) (kept : Option (EnergySnapshot Float))
    (clock : Clock) {events : List (MeterEvent Float)} (hevents : ∀ e ∈ events, e.Heats) :
    ((opening s kept clock).after events).meter.heat.total.cooling
        = (opening s kept clock).meter.heat.total.cooling
      ∧ ((opening s kept clock).after events).meter.heat.power.cooling = 0
      ∧ ((opening s kept clock).after events).meter.heat.kind ≠ some .cooling
      ∧ ∀ done e, done ++ [e] <+: events →
          ((opening s kept clock).after (done ++ [e])).meter.heat.daily.cooling
            = if ((opening s kept clock).after (done ++ [e])).meter.heat.resetDate
                = ((opening s kept clock).after done).meter.heat.resetDate
              then ((opening s kept clock).after done).meter.heat.daily.cooling else 0 := by
  have hopening : (opening s kept clock).meter.heat.OnlyHeats := by
    rw [heat_opening]
    exact HeatCounter.onlyHeats_beginning kept clock.now
  obtain ⟨hafter, htotal⟩ := onlyHeats_after hopening hevents
  refine ⟨htotal, hafter.power, hafter.kind, ?_⟩
  intro done e hdone
  -- the event comes after a run of its own
  have hbefore : ∀ x ∈ done ++ [e], x.Heats := fun x hx => hevents x (hdone.mem hx)
  obtain ⟨honly, -⟩ := onlyHeats_after hopening fun x hx =>
    hbefore x (List.mem_append_left [e] hx)
  rw [after_concat]
  exact (onlyHeats_take honly (hbefore e List.mem_concat_self)).2.2

/-- A unit that makes hot water while its sensors still show the outlet below the
inlet. -/
def laggingReading : Reading Float :=
  { CopSensor.steadyReading 50 with outlet := some 25, mode := some .dhw }

/-- Such a unit for a minute, and again a day later. -/
def laggingDays : List (MeterEvent Float) :=
  [.poll laggingReading, .set (.ofFirstDay 60), .poll laggingReading,
    .set ⟨86400, 0, by omega, Instant.firstDay_nanos_lt⟩, .poll laggingReading]

/-- The lagging unit counts heating; of the cooling kept from before, the total stays and
that of the day ends with it. -/
theorem hotWater_counts_no_cooling_of_laggingDays :
    (∀ e ∈ laggingDays, e.Heats)
      ∧ ((opening .standard (some ⟨0, 0, 2, 70, none⟩) (.startingAt (.ofFirstDay 0))).after
        laggingDays).meter.heat.total.cooling = 70
      ∧ 0 < ((opening .standard (some ⟨0, 0, 2, 70, none⟩) (.startingAt (.ofFirstDay 0))).after
        laggingDays).meter.heat.total.heating
      ∧ ((opening .standard (some ⟨0, 0, 2, 70, none⟩) (.startingAt (.ofFirstDay 0))).after
        laggingDays).meter.heat.daily.cooling = 0 := by
  have hevents : ∀ e ∈ laggingDays, e.Heats := by
    simp [laggingDays, MeterEvent.Heats, laggingReading, Mode.alwaysHeats]
  obtain ⟨htotal, -, -, hdaily⟩ := hotWater_counts_no_cooling .standard
    (some ⟨0, 0, 2, 70, none⟩) (.startingAt (.ofFirstDay 0)) hevents
  refine ⟨hevents, htotal, by decide +kernel, ?_⟩
  -- the last reading is the one of another day
  have hsplit : laggingDays.take 4 ++ [.poll laggingReading] = laggingDays := rfl
  have hlast := hdaily (laggingDays.take 4) (.poll laggingReading) (by rw [hsplit])
  rw [hsplit, if_neg (by decide +kernel)] at hlast
  exact hlast

end Replay

end HeatMeter
