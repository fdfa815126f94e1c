/-
  HeatMeter.Proofs.Defrost.Trace
  ──────────────────────────────
  **THE PHASES OF A WATCH ARE A LAW ABOUT ITS READINGS.**

  A fresh watch is normal.  It leaves that phase at a defrosting reading, the TRIP, and
  it is normal again at the first reading since the trip that ends a recovery.  In
  between it remembers the side of the trip, also where the unit defrosts again, and
  in recovery it counts the readings that have settled.

      TraceLaw            the law, of every history of readings
      tracks_after        what a watch holds after a run that ends no recovery
      first_normal_iff    where it is normal again
-/
import HeatMeter.Proofs.Defrost.Recovery
import Mathlib.Data.List.Infix

namespace HeatMeter

/-! ## §1. First times. -/

/-- A property holds of a list, and of no list that it goes beyond. -/
def First {β : Type} (P : List β → Prop) (l : List β) : Prop :=
  P l ∧ ∀ p, p <+: l → p ≠ l → ¬ P p

theorem first_concat_iff {β : Type} {P : List β → Prop} {l : List β} {x : β} :
    First P (l ++ [x]) ↔ P (l ++ [x]) ∧ ∀ p, p <+: l → ¬ P p := by
  unfold First
  refine and_congr_right fun _ => ?_
  constructor
  · intro h p hp
    apply h p (hp.trans (List.prefix_append l [x]))
    rintro rfl
    have hlength := hp.length_le
    rw [List.length_append, List.length_singleton] at hlength
    omega
  · intro h p hp hne
    rcases List.prefix_concat_iff.1 hp with heq | hp
    · exact absurd heq hne
    · exact h p hp

namespace DefrostWatch

variable {α : Type}

/-- Readings whose times do not go back. -/
def InOrder (history : List (WatchInput α)) : Prop :=
  history.Pairwise fun i j => i.now ≤ j.now

theorem InOrder.of_isPrefix {history done : List (WatchInput α)} (h : InOrder history)
    (hdone : done <+: history) : InOrder done :=
  h.sublist hdone.sublist

theorem isPrefix_concat (before since : List (WatchInput α)) (trip i : WatchInput α) :
    before ++ trip :: since <+: before ++ trip :: (since ++ [i]) :=
  ⟨[i], by rw [List.append_assoc, List.cons_append]⟩

theorem le_of_inOrder_concat {before since : List (WatchInput α)} {trip i : WatchInput α}
    (h : InOrder (before ++ trip :: (since ++ [i]))) : ∀ j ∈ since, j.now ≤ i.now := by
  have hsince := (List.pairwise_cons.1 (List.pairwise_append.1 h).2.1).2
  intro j hj
  exact (List.pairwise_append.1 hsince).2.2 j hj i (List.mem_singleton_self i)

variable [Scalar α]

/-! ## §2. The law. -/

/-- A fresh watch after readings, one after another. -/
def after (s : DefrostSettings α) (history : List (WatchInput α)) : DefrostWatch :=
  history.foldl (take s) fresh

/-- The side of a difference: whether it is above zero, where it is known. -/
def side (i : WatchInput α) : Option Bool :=
  i.deltaT.map fun dt => decide (0 < dt)

/-- A normal watch was tripped after `before` and has not been normal again. -/
structure Away (s : DefrostSettings α) (before : List (WatchInput α)) (trip : WatchInput α)
    (since : List (WatchInput α)) : Prop where
  /-- The watch was normal. -/
  normal : (after s before).phase = .normal
  /-- The trip is defrosting. -/
  tripped : trip.defrosting = true
  /-- The watch has not been normal since. -/
  away : ∀ p, p <+: since → (after s (before ++ trip :: p)).phase ≠ .normal

/-- What a fresh watch does along a history of readings. -/
structure TraceLaw (s : DefrostSettings α) (history : List (WatchInput α)) : Prop where
  /-- A normal watch leaves that phase exactly at a defrosting reading. -/
  leaves : ∀ before i, before ++ [i] <+: history → (after s before).phase = .normal →
    ((after s (before ++ [i])).phase ≠ .normal ↔ i.defrosting = true)
  /-- It is back for the first time exactly at the first reading that ends a recovery. -/
  returns : ∀ before trip since, before ++ trip :: since <+: history →
    (after s before).phase = .normal → trip.defrosting = true →
    (First (fun p => (after s (before ++ trip :: p)).phase = .normal) since
      ↔ First (Recovers s (side trip)) since)
  /-- Until then it remembers the side of the trip. -/
  remembers : ∀ before trip since, before ++ trip :: since <+: history →
    Away s before trip since → (after s (before ++ trip :: since)).positiveBefore = side trip
  /-- Outside recovery the count is zero. -/
  uncounted : ∀ done, done <+: history → (after s done).phase ≠ .recovery →
    (after s done).stableReadings = 0
  /-- In recovery it is the number of readings in a row, up to the last one and after `e`,
  that settle on the side of the trip, and these are fewer than are required. -/
  counted : ∀ done, done <+: history → (after s done).phase = .recovery →
    ∃ before trip since past e later, done = before ++ trip :: since
      ∧ Away s before trip since ∧ Entered since past e later
      ∧ (after s done).stableReadings = (later.rtakeWhile (settles s (side trip))).length
      ∧ (after s done).stableReadings < s.stableReadingsRequired

/-- A recovery has begun since the last trip of a normal watch, and no reading has ended
one. -/
def InRecovery (s : DefrostSettings α) (history : List (WatchInput α)) : Prop :=
  ∃ before trip since past e later, history = before ++ trip :: since
    ∧ (after s before).phase = .normal ∧ trip.defrosting = true
    ∧ Entered since past e later ∧ ∀ p, p <+: since → ¬ Recovers s (side trip) p

/-! ## §3. Whole runs. -/

theorem after_concat (s : DefrostSettings α) (history : List (WatchInput α)) (i : WatchInput α) :
    after s (history ++ [i]) = take s (after s history) i := by
  unfold after
  rw [List.foldl_concat]

/-- A watch that leaves recovery forgets its count. -/
theorem stableReadings_take {s : DefrostSettings α} {w : DefrostWatch} {i : WatchInput α}
    (h : w.phase ≠ .recovery → w.stableReadings = 0) :
    (take s w i).phase ≠ .recovery → (take s w i).stableReadings = 0 := by
  obtain ⟨phase, positiveBefore, stableReadings, recoveryStart⟩ := w
  unfold take observe
  cases phase with
  | normal =>
    have hzero : stableReadings = 0 := h (by simp)
    cases i.defrosting <;> simp [hzero]
  | defrost =>
    have hzero : stableReadings = 0 := h (by simp)
    cases i.defrosting <;> simp [hzero]
  | recovery =>
    -- every way out of recovery sets the count to zero
    dsimp only
    unfold recover
    split
    · simp
    · split
      · simp
      · split
        · split
          · split <;> simp
          · simp
        · simp

theorem stableReadings_after (s : DefrostSettings α) (history : List (WatchInput α)) :
    (after s history).phase ≠ .recovery → (after s history).stableReadings = 0 := by
  induction history using List.reverseRecOn with
  | nil => exact fun _ => rfl
  | append_singleton history i ih =>
    rw [after_concat]
    exact stableReadings_take ih

theorem phase_take_ne_normal_iff {s : DefrostSettings α} {w : DefrostWatch}
    (hnormal : w.phase = .normal) (i : WatchInput α) :
    (take s w i).phase ≠ .normal ↔ i.defrosting = true := by
  unfold take observe
  rw [hnormal]
  cases i.defrosting <;> simp [hnormal]

section

variable {s : DefrostSettings α} {before since : List (WatchInput α)} {trip i : WatchInput α}

/-- The trip itself takes the watch into the defrost phase, with the side remembered. -/
theorem tracks_trip (hnormal : (after s before).phase = .normal)
    (htrip : trip.defrosting = true) :
    Tracks s (side trip) [] (after s (before ++ [trip])) := by
  have hzero := stableReadings_after s before (by rw [hnormal]; exact DefrostPhase.noConfusion)
  have htake : take s (after s before) trip
      = ⟨.defrost, side trip, 0, (after s before).recoveryStart⟩ := by
    unfold take observe
    rw [hnormal, htrip]
    dsimp only
    rw [if_pos rfl, hzero]
    rfl
  rw [after_concat, htake]
  exact .defrost _ (by simp)

/-- **A run that ends no recovery** leaves the watch with what its readings amount to. -/
theorem tracks_after (hr : 1 ≤ s.stableReadingsRequired)
    (hnormal : (after s before).phase = .normal) (htrip : trip.defrosting = true)
    (horder : InOrder (before ++ trip :: since))
    (hnone : ∀ p, p <+: since → ¬ Recovers s (side trip) p) :
    Tracks s (side trip) since (after s (before ++ trip :: since)) := by
  -- by the last reading: what the watch holds before it decides what it does at it
  induction since using List.reverseRecOn with
  | nil => exact tracks_trip hnormal htrip
  | append_singleton since i ih =>
    have htracks := ih (horder.of_isPrefix (isPrefix_concat before since trip i))
      fun p hp => hnone p (hp.trans (List.prefix_append since [i]))
    rw [← List.cons_append, ← List.append_assoc, after_concat]
    rcases htracks.recovers_or_tracks hr (le_of_inOrder_concat horder) with hends | hgoes
    · exact absurd hends.1 (hnone _ (List.prefix_refl _))
    · exact hgoes.2

/-- After a run that ends no recovery, the next reading makes the watch normal exactly if it
ends one. -/
theorem phase_after_concat_iff (hr : 1 ≤ s.stableReadingsRequired)
    (hnormal : (after s before).phase = .normal) (htrip : trip.defrosting = true)
    (horder : InOrder (before ++ trip :: (since ++ [i])))
    (hnone : ∀ p, p <+: since → ¬ Recovers s (side trip) p) :
    (after s (before ++ trip :: (since ++ [i]))).phase = .normal
      ↔ Recovers s (side trip) (since ++ [i]) := by
  have htracks := tracks_after hr hnormal htrip
    (horder.of_isPrefix (isPrefix_concat before since trip i)) hnone
  rw [← List.cons_append, ← List.append_assoc, after_concat]
  rcases htracks.recovers_or_tracks hr (le_of_inOrder_concat horder) with hends | hgoes
  · exact iff_of_true hends.2 hends.1
  · exact iff_of_false hgoes.2.phase_ne_normal hgoes.1

/-- **A tripped watch is away as long as no reading ends a recovery.** -/
theorem away_iff (hr : 1 ≤ s.stableReadingsRequired)
    (hnormal : (after s before).phase = .normal) (htrip : trip.defrosting = true)
    (horder : InOrder (before ++ trip :: since)) :
    (∀ p, p <+: since → (after s (before ++ trip :: p)).phase ≠ .normal)
      ↔ ∀ p, p <+: since → ¬ Recovers s (side trip) p := by
  -- the readings before the last one say whether `phase_after_concat_iff` speaks of it
  induction since using List.reverseRecOn with
  | nil =>
    refine iff_of_true ?_ ?_
    · intro p hp
      rw [List.prefix_nil.1 hp]
      exact (tracks_trip hnormal htrip).phase_ne_normal
    · intro p hp
      rw [List.prefix_nil.1 hp]
      exact not_recovers_nil
  | append_singleton since i ih =>
    have hbefore := ih (horder.of_isPrefix (isPrefix_concat before since trip i))
    constructor
    · intro haway p hp
      have hnone := hbefore.1 fun q hq => haway q (hq.trans (List.prefix_append since [i]))
      rcases List.prefix_concat_iff.1 hp with rfl | hp
      · rw [← phase_after_concat_iff hr hnormal htrip horder hnone]
        exact haway _ (List.prefix_refl _)
      · exact hnone p hp
    · intro hnone p hp
      have hshort : ∀ q, q <+: since → ¬ Recovers s (side trip) q :=
        fun q hq => hnone q (hq.trans (List.prefix_append since [i]))
      rcases List.prefix_concat_iff.1 hp with rfl | hp
      · rw [ne_eq, phase_after_concat_iff hr hnormal htrip horder hshort]
        exact hnone _ (List.prefix_refl _)
      · exact hbefore.2 hshort p hp

/-- **The first return is at the first reading that ends a recovery.** -/
theorem first_normal_iff (hr : 1 ≤ s.stableReadingsRequired)
    (hnormal : (after s before).phase = .normal) (htrip : trip.defrosting = true)
    (horder : InOrder (before ++ trip :: since)) :
    First (fun p => (after s (before ++ trip :: p)).phase = .normal) since
      ↔ First (Recovers s (side trip)) since := by
  induction since using List.reverseRecOn with
  | nil =>
    refine iff_of_false ?_ ?_
    · exact fun h => (tracks_trip hnormal htrip).phase_ne_normal h.1
    · exact fun h => not_recovers_nil h.1
  | append_singleton since i _ =>
    have hbefore := away_iff hr hnormal htrip
      (horder.of_isPrefix (isPrefix_concat before since trip i))
    rw [first_concat_iff, first_concat_iff]
    constructor
    · rintro ⟨hback, haway⟩
      have hnone := hbefore.1 haway
      exact ⟨(phase_after_concat_iff hr hnormal htrip horder hnone).1 hback, hnone⟩
    · rintro ⟨hends, hnone⟩
      exact ⟨(phase_after_concat_iff hr hnormal htrip horder hnone).2 hends, hbefore.2 hnone⟩

/-- A watch that is not normal was tripped, and has been away since. -/
theorem exists_away {history : List (WatchInput α)} (h : (after s history).phase ≠ .normal) :
    ∃ before trip since, history = before ++ trip :: since ∧ Away s before trip since := by
  induction history using List.reverseRecOn with
  | nil => exact absurd rfl h
  | append_singleton history i ih =>
    by_cases hnormal : (after s history).phase = .normal
    · -- tripped just now
      have hi : i.defrosting = true := by
        rw [after_concat, phase_take_ne_normal_iff hnormal] at h
        exact h
      refine ⟨history, i, [], rfl, hnormal, hi, ?_⟩
      intro p hp
      rw [List.prefix_nil.1 hp]
      exact h
    · obtain ⟨before, trip, since, rfl, haway⟩ := ih hnormal
      refine ⟨before, trip, since ++ [i], by simp, haway.normal, haway.tripped, ?_⟩
      intro p hp
      rcases List.prefix_concat_iff.1 hp with rfl | hp
      · rw [← List.cons_append, ← List.append_assoc]
        exact h
      · exact haway.away p hp

theorem Away.tracks (h : Away s before trip since) (hr : 1 ≤ s.stableReadingsRequired)
    (horder : InOrder (before ++ trip :: since)) :
    Tracks s (side trip) since (after s (before ++ trip :: since)) :=
  tracks_after hr h.normal h.tripped horder ((away_iff hr h.normal h.tripped horder).1 h.away)

/-- **A watch recovers where a recovery has begun since its trip and no reading has ended
one.** -/
theorem phase_eq_recovery_iff (hr : 1 ≤ s.stableReadingsRequired)
    {history : List (WatchInput α)} (horder : InOrder history) :
    (after s history).phase = .recovery ↔ InRecovery s history := by
  constructor
  · intro hphase
    have hleft : (after s history).phase ≠ .normal := by
      rw [hphase]
      exact DefrostPhase.noConfusion
    obtain ⟨before, trip, since, rfl, haway⟩ := exists_away hleft
    obtain ⟨past, e, later, hentered, -, -⟩ := (haway.tracks hr horder).of_recovery hphase
    exact ⟨before, trip, since, past, e, later, rfl, haway.normal, haway.tripped, hentered,
      (away_iff hr haway.normal haway.tripped horder).1 haway.away⟩
  · rintro ⟨before, trip, since, past, e, later, rfl, hnormal, htrip, hentered, hnone⟩
    exact (tracks_after hr hnormal htrip horder hnone).phase_of_entered hentered

end

/-! ## §4. The law holds. -/

/-- **A fresh watch obeys the law along every history whose times do not go back.** -/
theorem traceLaw_of_inOrder {s : DefrostSettings α} (hr : 1 ≤ s.stableReadingsRequired)
    {history : List (WatchInput α)} (horder : InOrder history) : TraceLaw s history where
  leaves := by
    intro before i _ hnormal
    rw [after_concat]
    exact phase_take_ne_normal_iff hnormal i
  returns := by
    intro before trip since hdone hnormal htrip
    exact first_normal_iff hr hnormal htrip (horder.of_isPrefix hdone)
  remembers := by
    intro before trip since hdone haway
    exact (haway.tracks hr (horder.of_isPrefix hdone)).positiveBefore
  uncounted := fun done _ => stableReadings_after s done
  counted := by
    intro done hdone hphase
    have hleft : (after s done).phase ≠ .normal := by
      rw [hphase]
      exact DefrostPhase.noConfusion
    obtain ⟨before, trip, since, rfl, haway⟩ := exists_away hleft
    obtain ⟨past, e, later, hentered, hcount, hfew⟩ :=
      (haway.tracks hr (horder.of_isPrefix hdone)).of_recovery hphase
    exact ⟨before, trip, since, past, e, later, rfl, haway, hentered, hcount, hfew⟩

/-- What a watch is shown so many seconds after the start. -/
def reading (second : Nat) (defrosting : Bool) (deltaT : Option Float) : WatchInput Float :=
  ⟨defrosting, deltaT, .ofSeconds second⟩

/-- A defrost in a heating circuit that is taken up again, and the settling after it. -/
def defrostCycle : List (WatchInput Float) :=
  [reading 0 false (some 4), reading 60 true (some 4), reading 120 true (some (-6)),
    reading 180 false (some (-3)), reading 200 false (some 1), reading 220 true none,
    reading 240 false none, reading 260 false (some 1), reading 280 false (some 2),
    reading 300 false (some 2.5)]

/-- The law of the defrost cycle: its last reading is the third in a row to settle, and the
watch is normal again. -/
theorem traceLaw_of_defrostCycle :
    1 ≤ (DefrostSettings.standard : DefrostSettings Float).stableReadingsRequired
      ∧ InOrder defrostCycle ∧ TraceLaw .standard defrostCycle
      ∧ (after .standard defrostCycle.dropLast).stableReadings = 2
      ∧ (after .standard defrostCycle).phase = .normal := by
  have horder : InOrder defrostCycle := by
    unfold InOrder
    decide
  exact ⟨by decide, horder, traceLaw_of_inOrder (by decide) horder, by decide +kernel,
    by decide +kernel⟩

end DefrostWatch

end HeatMeter
