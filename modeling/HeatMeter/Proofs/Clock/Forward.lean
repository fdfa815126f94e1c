/-
  HeatMeter.Proofs.Clock.Forward
  ──────────────────────────────
  **A CLOCK THAT ONLY MOVES FORWARD NEVER OVERFLOWS, AND KEEPS TIME OUTSIDE LEAP SECONDS.**

  A forward move sets a clock to no earlier instant, or lets it run for a time that its
  wall can show.  How far the monotonic reading follows is decided by the span of the
  move, and a span may count a leap second that the two instants do not differ by.  So
  the reading can run ahead of the wall, but not beyond bounds:

      generous    a count of the instants that grants every second a leap second, and
                  that no span outruns
      Ample       the reading is at most a generous count, which leaves room for every
                  forward move
      KeepsTime   as long as the wall shows no leap second, both readings move alike
-/
import HeatMeter.Proofs.Clock
import Mathlib.Logic.Relation

namespace HeatMeter

/-! ## §1. A generous count of instants. -/

namespace Instant

/-- Nanoseconds with a leap second in every second. -/
def generous (t : Instant) : Int :=
  2 * t.seconds * 1000000000 + t.nanos

theorem generous_bounds (t : Instant) :
    -20000000000000000000000 ≤ t.generous ∧ t.generous ≤ 20000000000000000000000 := by
  have hrange := t.in_range
  have hnanos := t.nanos_lt
  unfold generous
  omega

theorem generous_mono {a b : Instant} (h : a ≤ b) : a.generous ≤ b.generous := by
  have hnanos := a.nanos_lt
  rw [le_def] at h
  unfold generous
  omega

/-- A leap second is only counted between instants of different seconds. -/
theorem leapBetween_of_seconds {a b : Instant} (h : a.seconds = b.seconds) :
    leapBetween a b = 0 := by
  have hday : a.secondOfDay = b.secondOfDay := by
    unfold secondOfDay
    rw [h]
  unfold leapBetween
  rw [hday, if_neg (by omega), if_neg (by omega)]

/-- **No span forward outruns the generous count.** -/
theorem since_le_generous {a b : Instant} (h : a ≤ b) :
    b.since a ≤ b.generous - a.generous := by
  have hleap := (leapBetween_bounds b a).2
  rw [le_def] at h
  unfold since generous nanosPerSecond
  rw [linear_def, linear_def]
  rcases h with hless | ⟨hsame, -⟩
  · omega
  · -- within one second no leap second is counted
    have hnone := leapBetween_of_seconds (a := b) (b := a) hsame.symm
    omega

/-- No span between two instants is longer than the calendar, twice over. -/
theorem since_le (a b : Instant) : b.since a ≤ 40000000000000000000000 := by
  have hleap := (leapBetween_bounds b a).2
  have ha := a.in_range
  have hb := b.in_range
  have hnanos := b.nanos_lt
  unfold since nanosPerSecond
  rw [linear_def, linear_def]
  omega

/-- **A shift forward leads to no earlier instant**, and is not longer than the generous
count of what it passes. -/
theorem le_generous_of_add? {a b : Instant} {span : Int} (hspan : 0 ≤ span)
    (h : a.add? span = some b) : a ≤ b ∧ span ≤ b.generous - a.generous := by
  have hbelow : 0 ≤ a.nanos := Nat.zero_le _
  rw [le_def]
  unfold generous
  unfold add? at h
  cases hleap : a.isLeap with
  | false =>
    -- outside leap seconds a shift is a sum
    rw [hleap, if_neg (by decide)] at h
    rw [isLeap_eq_false_iff] at hleap
    obtain ⟨hb, hlinear⟩ := ofLinear?_eq_some h
    rw [isLeap_eq_false_iff] at hb
    rw [linear_def, linear_def] at hlinear
    omega
  | true =>
    rw [hleap, if_pos rfl] at h
    unfold isLeap nanosPerSecond at hleap
    rw [decide_eq_true_eq] at hleap
    have hsecond : (nanosPerSecond : Int) = 1000000000 := rfl
    simp only [hsecond] at h
    have hwhole := Int.mul_tdiv_add_tmod span 1000000000
    have hrest : 0 ≤ span.tmod 1000000000 := Int.tmod_nonneg _ hspan
    have hdiv : 0 ≤ span.tdiv 1000000000 := Int.tdiv_nonneg hspan (by decide)
    split at h
    next hleaves =>
      -- out of the leap second, which is a second of its own
      obtain ⟨hb, hlinear⟩ := ofLinear?_eq_some h
      rw [isLeap_eq_false_iff] at hb
      rw [linear_def, linear_def] at hlinear
      omega
    next hstays =>
      -- within it only the nanoseconds grow
      rw [if_neg (by omega)] at h
      obtain ⟨hseconds, hnanos⟩ := mk?_eq_some h
      omega

end Instant

/-! ## §2. Forward moves. -/

namespace Clock

/-- The clock is set to no earlier instant, or runs for a time that its wall can show. -/
inductive Forward : Clock → Clock → Prop where
  /-- The clock is set to no earlier instant. -/
  | set (c : Clock) {target : Instant} (h : c.now ≤ target) : Forward c (c.set target).1
  /-- The clock runs, and its wall follows. -/
  | advance (c : Clock) {step : Duration} {span : Int} {later : Instant}
      (hspan : step.span? = some span) (hnow : c.now.add? span = some later) :
      Forward c (c.advance step).1

/-- The monotonic reading is at most a generous count of the wall time. -/
def Ample (c : Clock) : Prop :=
  (c.elapsed.nanos : Int) ≤ c.now.generous + 100000000000000000000000

theorem ample_startingAt (start : Instant) : (startingAt start).Ample := by
  have hbounds := start.generous_bounds
  show ((0 : Nat) : Int) ≤ start.generous + 100000000000000000000000
  omega

/-- A new clock may be set anywhere once. -/
theorem set_startingAt (start t : Instant) :
    ((startingAt start).set t).1.now = t ∧ ((startingAt start).set t).1.Ample := by
  have hsince := Instant.since_le start t
  have hbounds := t.generous_bounds
  have hzero : ((startingAt start).elapsed.nanos : Int) = 0 := rfl
  have hlong : (Duration.longestNanos : Int) = 18446744073709551615999999999 := rfl
  have hspan : t.since (startingAt start).now = t.since start := rfl
  obtain ⟨elapsed, hset, hnanos⟩ := (startingAt start).set_eq t (by omega)
  rw [hset]
  refine ⟨rfl, ?_⟩
  show (elapsed.nanos : Int) ≤ t.generous + 100000000000000000000000
  omega

section

variable {c c' : Clock}

theorem Ample.room (h : c.Ample) {later : Instant} {span : Int}
    (hspan : span ≤ later.generous - c.now.generous) :
    (c.elapsed.nanos : Int) + span ≤ Duration.longestNanos := by
  have hbounds := later.generous_bounds
  have hlong : (Duration.longestNanos : Int) = 18446744073709551615999999999 := rfl
  unfold Ample at h
  omega

/-- Setting an ample clock forward keeps it ample. -/
theorem Ample.set (h : c.Ample) {t : Instant} (hle : c.now ≤ t) :
    ∃ elapsed, c.set t = (⟨t, elapsed⟩, .moved)
      ∧ (elapsed.nanos : Int) = c.elapsed.nanos + max 0 (t.since c.now)
      ∧ (⟨t, elapsed⟩ : Clock).Ample := by
  have hsince := Instant.since_le_generous hle
  have hmono := Instant.generous_mono hle
  obtain ⟨elapsed, hset, hnanos⟩ := c.set_eq t (h.room hsince)
  refine ⟨elapsed, hset, hnanos, ?_⟩
  unfold Ample at h ⊢
  dsimp only
  omega

/-- An ample clock can run for every time that its wall can show. -/
theorem Ample.advance (h : c.Ample) {step : Duration} {span : Int} {later : Instant}
    (hspan : step.span? = some span) (hnow : c.now.add? span = some later) :
    ∃ elapsed, c.advance step = (⟨later, elapsed⟩, .moved)
      ∧ (elapsed.nanos : Int) = c.elapsed.nanos + span
      ∧ c.now ≤ later ∧ (⟨later, elapsed⟩ : Clock).Ample := by
  have hnanos : span = step.nanos := by
    unfold Duration.span? at hspan
    split at hspan
    next => exact (Option.some.inj hspan).symm
    next => exact absurd hspan (by simp)
  obtain ⟨hle, hgenerous⟩ := Instant.le_generous_of_add? (by omega) hnow
  have hroom := h.room hgenerous
  obtain ⟨elapsed, hadd, hsum⟩ := Duration.add?_eq_some c.elapsed step (by omega)
  refine ⟨elapsed, ?_, by omega, hle, ?_⟩
  · unfold Clock.advance
    rw [hadd]
    dsimp only
    rw [hspan]
    dsimp only
    rw [hnow]
  · unfold Ample at h ⊢
    dsimp only
    omega

/-- **A forward move of an ample clock** leads to no earlier wall time and an ample
clock. -/
theorem Ample.forward (h : c.Ample) (hmove : Forward c c') : c.now ≤ c'.now ∧ c'.Ample := by
  cases hmove with
  | set hle =>
    obtain ⟨elapsed, hset, -, hample⟩ := h.set hle
    rw [hset]
    exact ⟨hle, hample⟩
  | advance hspan hnow =>
    obtain ⟨elapsed, hadvance, -, hle, hample⟩ := h.advance hspan hnow
    rw [hadvance]
    exact ⟨hle, hample⟩

theorem Ample.run (h : c.Ample) (hmoves : Relation.ReflTransGen Forward c c') : c'.Ample := by
  induction hmoves with
  | refl => exact h
  | tail _ hmove ih => exact (ih.forward hmove).2

/-! ## §3. Keeping time. -/

/-- Both readings have moved alike since the clock was as `origin`, forward, and the wall
shows no leap second. -/
structure KeepsTime (origin c : Clock) : Prop where
  /-- The wall shows no leap second. -/
  ordinary : c.now.isLeap = false
  /-- The wall has not gone back. -/
  later : origin.now.linear ≤ c.now.linear
  /-- The monotonic reading has moved as far as the wall. -/
  elapsed : (c.elapsed.nanos : Int) - origin.elapsed.nanos
    = c.now.linear - origin.now.linear

theorem keepsTime_self (h : c.now.isLeap = false) : c.KeepsTime c :=
  ⟨h, by omega, by omega⟩

theorem KeepsTime.trans {c'' : Clock} (h : c.KeepsTime c') (h' : c'.KeepsTime c'') :
    c.KeepsTime c'' := by
  have hlater := h.later
  have hlater' := h'.later
  have helapsed := h.elapsed
  have helapsed' := h'.elapsed
  exact ⟨h'.ordinary, by omega, by omega⟩

/-- **A forward move from an ordinary instant to another keeps time.** -/
theorem Ample.keepsTime (h : c.Ample) (hmove : Forward c c') (hnow : c.now.isLeap = false)
    (hnow' : c'.now.isLeap = false) : c.KeepsTime c' := by
  cases hmove with
  | set hle =>
    obtain ⟨elapsed, hset, hnanos, -⟩ := h.set hle
    rw [hset] at hnow' ⊢
    have hspan := Instant.since_eq hnow' hnow
    have hlinear := (Instant.linear_le_linear hnow hnow').2 hle
    refine ⟨hnow', hlinear, ?_⟩
    dsimp only at hspan hlinear ⊢
    omega
  | advance hspan hadd =>
    obtain ⟨elapsed, hadvance, hnanos, hle, -⟩ := h.advance hspan hadd
    obtain ⟨hlater, hlinear⟩ := Instant.add?_eq_some hnow hadd
    rw [hadvance]
    refine ⟨hlater, (Instant.linear_le_linear hnow hlater).2 hle, ?_⟩
    dsimp only
    omega

/-- The monotonic reading of an ample clock is far from the longest duration, and stays so
as long as it keeps time. -/
theorem Ample.elapsed_lt (h : c.Ample) (hkeeps : c.KeepsTime c') :
    c'.elapsed.nanos < Duration.longestNanos := by
  have hbounds := c.now.generous_bounds
  have hfirst := Instant.firstLinear_le c.now
  have hlast := Instant.linear_lt hkeeps.ordinary
  have helapsed := hkeeps.elapsed
  have hlong : (Duration.longestNanos : Int) = 18446744073709551615999999999 := rfl
  unfold Instant.firstLinear at hfirst
  unfold Ample at h
  omega

end

end Clock

end HeatMeter
