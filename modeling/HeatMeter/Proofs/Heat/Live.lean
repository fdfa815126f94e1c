/-
  HeatMeter.Proofs.Heat.Live
  ──────────────────────────
  **AT MOST ONE POWER IS LIVE, AND IT IS OF THE CURRENT KIND.**

  Heating and cooling power stand side by side in a counter, and raw powers of any value
  reach it.  An update writes both of them at once, from the power that it counts:

      a power counts     it is the one of its kind, the other one is zero, and its
                         kind and its time are the current ones
      no power counts    there is no kind yet, and both stay at zero

  So a counter either has no kind, no baseline, no power and no lock, or it has a kind
  and no power of the other one: `OneLive.take` is one update, `OneLive.run` a run.  A
  compressor that runs takes the lock off, and one that rests leaves no power of a kind
  that it finds locked or not above zero.
-/
import HeatMeter.Proofs.Heat.Growth
import HeatMeter.Proofs.Heat.Lock

namespace HeatMeter.HeatCounter

/-! ## §1. The lock after an update. -/

section

variable {α : Type} [Scalar α] {c : HeatCounter α} {i : HeatInput α} {m : HeatKind}

theorem other_ne (k : HeatKind) : k.other ≠ k := by
  cases k <;> decide

/-- Only a counter without a kind can fail to count a power. -/
theorem kind_of_counted?_none (h : counted? c.kind c.locked i = none) : c.kind = none := by
  unfold counted? choose? at h
  split at h
  next => cases h
  next =>
    split at h
    next => cases h
    next => exact Option.map_eq_none_iff.1 h

/-- **A compressor that runs takes the lock off.** -/
theorem locked_take_of_running (h : i.running = true) : (c.take i).locked = false := by
  rw [locked_take, lockedAfter, h]
  rfl

/-- A compressor that rests locks the current kind, or leaves it locked, if its power is not
above zero. -/
theorem locked_take_of_resting (hkind : c.kind = some m) (hoff : i.running = false)
    (hshut : c.locked = true ∨ (assign i.mode i.power).get m ≤ 0) :
    (c.take i).locked = true := by
  rw [locked_take, lockedAfter, hkind, hoff, ← assign_eq]
  unfold gate
  dsimp only
  rw [if_pos hshut]

/-- **Under the lock the kind that an update finds has no power left**, whichever kind the
update leaves. -/
theorem power_take_of_locked [Scalar.Lawful α] (hkind : c.kind = some m)
    (hoff : i.running = false) (hlock : (c.take i).locked = true) :
    (c.take i).power.get m = 0 := by
  have hpower := (stopped_take hkind hoff hlock).remembers.power _ rfl
  rw [hpower]
  -- a resting power is one of the other kind, or a zero of this one
  unfold resting
  split
  next => rw [ByKind.get_set_of_ne _ (other_ne m).symm, ByKind.get_both]
  next => exact ByKind.get_set_self _ m 0

end

/-! ## §2. The powers of a counter. -/

/-- No power is below zero, and there is at most one: none before a kind was counted, and
then none of the other kind. -/
structure OneLive (c : HeatCounter Float) : Prop where
  /-- No power is below zero, or a NaN. -/
  nonneg : ∀ k, 0 ≤ c.power.get k
  /-- There is a kind as soon as there is a baseline. -/
  started : c.kind = none ↔ c.baseline = none
  /-- Without a kind nothing is live and nothing is locked. -/
  idle : c.kind = none → c.power = .both 0 ∧ c.locked = false
  /-- Only the current kind is live. -/
  current : ∀ k ∈ c.kind, c.power.get k.other = 0

variable {c : HeatCounter Float}

theorem OneLive.isNaN (h : c.OneLive) (k : HeatKind) : (c.power.get k).isNaN = false :=
  (FloatLaws.addable_of_nonneg (h.nonneg k)).isNaN

theorem oneLive_beginning (kept : Option (EnergySnapshot Float)) (start : Instant) :
    (beginning kept start).OneLive := by
  have hnonneg := nonneg_power_beginning kept start
  cases kept with
  | none => exact ⟨hnonneg, ⟨fun _ => rfl, fun _ => rfl⟩, fun _ => ⟨rfl, rfl⟩, nofun⟩
  | some s => exact ⟨hnonneg, ⟨fun _ => rfl, fun _ => rfl⟩, fun _ => ⟨rfl, rfl⟩, nofun⟩

/-- **One update leaves at most one power live.** -/
theorem OneLive.take (h : c.OneLive) (i : HeatInput Float) : (c.take i).OneLive := by
  have hnonneg := power_take h.nonneg i
  cases hcounted : counted? c.kind c.locked i with
  | none =>
    -- there is no kind, and so nothing for a resting compressor to lock
    have hkind := kind_of_counted?_none hcounted
    have hlocked : lockedAfter c.kind c.locked i = false := by
      rw [hkind, (h.idle hkind).2]
      unfold lockedAfter gate
      cases i.running <;> rfl
    rw [take_of_none hcounted, hlocked] at hnonneg ⊢
    exact ⟨hnonneg, h.started, fun _ => ⟨(h.idle hkind).1, rfl⟩, h.current⟩
  | some x =>
    rw [take_of_some hcounted, record_eq] at hnonneg ⊢
    refine ⟨hnonneg, ?_, nofun, ?_⟩
    · exact ⟨nofun, nofun⟩
    · intro k hk
      rw [Option.mem_some_iff] at hk
      show ((ByKind.both 0).set x.kind x.power).get k.other = 0
      rw [hk, ByKind.get_set_of_ne _ (other_ne k), ByKind.get_both]

theorem OneLive.run (h : c.OneLive) (inputs : List (HeatInput Float)) :
    (c.run inputs).OneLive := by
  induction inputs generalizing c with
  | nil => exact h
  | cons i rest ih => exact ih (h.take i)

/-- **At most one power is live, and it is of the current kind**, after every run of inputs
of any value: no power is below zero or a NaN, there is a kind exactly if there is a
baseline, without one both powers are zero and the lock is off, and the power of the other
kind is zero.  A further input with the compressor running leaves the lock off; one with
the compressor resting that finds the current kind locked or its power not above zero
leaves that kind locked and without power. -/
theorem run_one_live (kept : Option (EnergySnapshot Float)) (start : Instant)
    (inputs : List (HeatInput Float)) {c : HeatCounter Float}
    (hrun : (beginning kept start).run inputs = c) :
    ((∀ k, 0 ≤ c.power.get k ∧ (c.power.get k).isNaN = false)
        ∧ (c.kind = none ↔ c.baseline = none)
        ∧ (c.kind = none → c.power.heating = 0 ∧ c.power.cooling = 0 ∧ c.locked = false)
        ∧ (c.kind = some .heating → c.power.cooling = 0)
        ∧ (c.kind = some .cooling → c.power.heating = 0))
      ∧ ∀ i : HeatInput Float,
        (i.running = true → (c.take i).locked = false)
        ∧ ∀ m, i.running = false → c.kind = some m →
          (c.locked = true ∨ (assign i.mode i.power).get m ≤ 0) →
          (c.take i).locked = true ∧ (c.take i).power.get m = 0 := by
  have h : c.OneLive := by
    rw [← hrun]
    exact (oneLive_beginning kept start).run inputs
  refine ⟨⟨fun k => ⟨h.nonneg k, h.isNaN k⟩, h.started, ?_, ?_, ?_⟩, ?_⟩
  · intro hkind
    obtain ⟨hpower, hlocked⟩ := h.idle hkind
    rw [hpower]
    exact ⟨rfl, rfl, hlocked⟩
  · intro hkind
    exact h.current .heating hkind
  · intro hkind
    exact h.current .cooling hkind
  · intro i
    refine ⟨locked_take_of_running, ?_⟩
    intro m hoff hkind hshut
    have hlock := locked_take_of_resting hkind hoff hshut
    exact ⟨hlock, power_take_of_locked hkind hoff hlock⟩

/-- Heating, a NaN and cooling, and then a rest that takes the cooling as below zero and
the heating as live. -/
theorem run_one_live_of_turning :
    ((beginning none (.ofFirstDay 0)).run [residual 0 8 0 true, residual 60 (0 / 0) 0 true,
        residual 120 0 3 true]).kind = some .cooling
      ∧ (((beginning none (.ofFirstDay 0)).run [residual 0 8 0 true, residual 60 (0 / 0) 0 true,
        residual 120 0 3 true]).take (residual 180 2 (-1) false)).power.cooling = 0
      ∧ (((beginning none (.ofFirstDay 0)).run [residual 0 8 0 true, residual 60 (0 / 0) 0 true,
        residual 120 0 3 true]).take (residual 180 2 (-1) false)).kind = some .heating := by
  have hkind : ((beginning none (.ofFirstDay 0)).run [residual 0 8 0 true,
      residual 60 (0 / 0) 0 true, residual 120 0 3 true]).kind = some .cooling := by
    decide +kernel
  obtain ⟨-, hnext⟩ := run_one_live none (.ofFirstDay 0)
    [residual 0 8 0 true, residual 60 (0 / 0) 0 true, residual 120 0 3 true] rfl
  obtain ⟨-, hrest⟩ := hnext (residual 180 2 (-1) false)
  exact ⟨hkind, (hrest .cooling rfl hkind (.inr (by decide))).2, by decide +kernel⟩

end HeatMeter.HeatCounter
