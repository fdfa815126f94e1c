/-
  HeatMeter.Proofs.Clock
  ──────────────────────
  **A CLOCK THAT IS ONLY SET FORWARD MEASURES THE TIME SINCE ITS START.**

  A clock is IN STEP with its start when its monotonic reading is the time from
  the start to the wall time, on the linear scale of ordinary instants.  A new
  clock is in step, and setting it forward to an ordinary instant keeps it in
  step: no sum overflows, because the whole calendar is shorter than the longest
  duration.
-/
import HeatMeter.Clock
import HeatMeter.Proofs.Time.Instant

namespace HeatMeter

namespace Duration

theorem le_def {a b : Duration} : a ≤ b ↔ a.nanos ≤ b.nanos :=
  Iff.rfl

protected theorem le_refl (a : Duration) : a ≤ a :=
  Nat.le_refl a.nanos

protected theorem le_trans {a b c : Duration} (hab : a ≤ b) (hbc : b ≤ c) : a ≤ c := by
  rw [le_def] at hab hbc ⊢
  exact Nat.le_trans hab hbc

theorem ext_nanos {a b : Duration} (h : a.nanos = b.nanos) : a = b := by
  cases a
  cases b
  subst h
  rfl

theorem ofSpan?_eq_some (span : Int) (h : 0 ≤ span) (hl : span ≤ longestNanos) :
    ∃ d, ofSpan? span = some d ∧ (d.nanos : Int) = span := by
  have hn : span.toNat ≤ longestNanos := by omega
  refine ⟨⟨span.toNat, hn⟩, ?_, ?_⟩
  · rw [ofSpan?, if_pos h, ofNanos?, dif_pos hn]
  · show (span.toNat : Int) = span
    omega

theorem add?_eq_some (a b : Duration) (h : a.nanos + b.nanos ≤ longestNanos) :
    ∃ d, a.add? b = some d ∧ d.nanos = a.nanos + b.nanos :=
  ⟨⟨a.nanos + b.nanos, h⟩, by rw [add?, ofNanos?, dif_pos h], rfl⟩

theorem nanos_saturatingAdd (a b : Duration) :
    (a.saturatingAdd b).nanos = min (a.nanos + b.nanos) longestNanos :=
  rfl

theorem le_saturatingAdd (a b : Duration) : a ≤ a.saturatingAdd b := by
  have hle : a.nanos ≤ longestNanos := a.le_longest
  rw [le_def, nanos_saturatingAdd]
  omega

theorem le_max_left (a b : Duration) : a ≤ a.max b := by
  unfold max
  split
  next hle => exact hle
  next => exact a.le_refl

end Duration

namespace Clock

/-- **All that setting a clock does**, where there is room for the span: the monotonic
reading follows a span that is not negative. -/
theorem set_eq (c : Clock) (t : Instant)
    (hroom : (c.elapsed.nanos : Int) + t.since c.now ≤ Duration.longestNanos) :
    ∃ elapsed, c.set t = (⟨t, elapsed⟩, .moved)
      ∧ (elapsed.nanos : Int) = c.elapsed.nanos + max 0 (t.since c.now) := by
  unfold set
  by_cases hspan : 0 ≤ t.since c.now
  · obtain ⟨forward, hforward, hnanos⟩ :=
      Duration.ofSpan?_eq_some (t.since c.now) hspan (by omega)
    obtain ⟨elapsed, hadd, hsum⟩ := Duration.add?_eq_some c.elapsed forward (by omega)
    rw [hforward]
    dsimp only
    rw [hadd]
    exact ⟨elapsed, rfl, by omega⟩
  · have hback : Duration.ofSpan? (t.since c.now) = none := by
      rw [Duration.ofSpan?, if_neg hspan]
    rw [hback]
    exact ⟨c.elapsed, rfl, by omega⟩

/-- The monotonic reading is the time from `start` to an ordinary wall time. -/
structure InStep (start : Instant) (c : Clock) : Prop where
  /-- The wall shows no leap second. -/
  ordinary : c.now.isLeap = false
  /-- The monotonic reading is the time since the start. -/
  elapsed : (c.elapsed.nanos : Int) = c.now.linear - start.linear

/-- The monotonic reading at `t` of a clock in step. -/
def readingAt (start t : Instant) : Duration :=
  .clamp (t.linear - start.linear).toNat

theorem startingAt_inStep {start : Instant} (h : start.isLeap = false) :
    (startingAt start).InStep start :=
  ⟨h, by show (0 : Int) = start.linear - start.linear; omega⟩

/-- **Setting a clock forward keeps it in step**, and the wall shows the target. -/
theorem InStep.set {start t : Instant} {c : Clock} (h : c.InStep start)
    (ht : t.isLeap = false) (hle : c.now ≤ t) :
    (c.set t).1.now = t ∧ (c.set t).1.InStep start := by
  have hspan : t.since c.now = t.linear - c.now.linear := Instant.since_eq ht h.ordinary
  have hforward : c.now.linear ≤ t.linear := (Instant.linear_le_linear h.ordinary ht).2 hle
  have hfirst := Instant.firstLinear_le start
  have hlast := Instant.linear_lt ht
  have helapsed := h.elapsed
  unfold Instant.firstLinear at hfirst
  -- the calendar is shorter than the longest duration, so the sum does not overflow
  have hlong : (Duration.longestNanos : Int) = 18446744073709551615999999999 := rfl
  obtain ⟨elapsed, hset, hnanos⟩ := c.set_eq t (by omega)
  rw [hset]
  exact ⟨rfl, ht, by dsimp only; omega⟩

theorem InStep.elapsed_eq {start : Instant} {c : Clock} (h : c.InStep start) :
    c.elapsed = readingAt start c.now := by
  have hread : (c.now.linear - start.linear).toNat = c.elapsed.nanos := by
    rw [← h.elapsed, Int.toNat_natCast]
  unfold readingAt Duration.clamp
  rw [hread]
  cases c.elapsed with
  | mk nanos hle => exact Duration.ext_nanos (Nat.min_eq_left hle).symm

/-- An interval that began at `t` is over on the monotonic reading when it is over
on the linear scale; a saturated sum lies beyond every reading. -/
theorem InStep.readingAt_add_le {start t : Instant} {c : Clock} (h : c.InStep start)
    (ht : start.linear ≤ t.linear) (interval : Duration) :
    (readingAt start t).saturatingAdd interval ≤ c.elapsed
      ↔ t.linear + interval.nanos ≤ c.now.linear := by
  have hfirst := Instant.firstLinear_le start
  have hlast := Instant.linear_lt h.ordinary
  have helapsed := h.elapsed
  unfold Instant.firstLinear at hfirst
  rw [Duration.le_def, Duration.nanos_saturatingAdd]
  -- a saturated sum is beyond the calendar on either side
  unfold readingAt Duration.clamp Duration.longestNanos
  dsimp only
  omega

end Clock

end HeatMeter
