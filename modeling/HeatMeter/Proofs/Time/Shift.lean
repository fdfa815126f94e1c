/-
  HeatMeter.Proofs.Time.Shift
  ───────────────────────────
  **THE SAME TIME OF DAY, SOME DAYS LATER.**

  `a.Shifted days b`: outside leap seconds, `b` is the time of day of `a` on the day
  `days` later, or earlier where the number is negative.  On two such pairs everything
  that is measured between instants agrees, and dates are as many days apart:

      le_iff     b ≤ b'        ↔  a ≤ a'
      since      b'.since b    =  a'.since a
      day        b.date.day    =  a.date.day + days

  Two clocks are shifted if their walls are and they have run for the same time; being
  set to shifted instants keeps them so.
-/
import HeatMeter.Clock
import HeatMeter.Proofs.Time.Instant

namespace HeatMeter

variable {days : Int}

/-! ## §1. Instants. -/

namespace Instant

/-- The same time of day so many days later. -/
structure Shifted (days : Int) (a b : Instant) : Prop where
  /-- The instant is in no leap second. -/
  ordinary : a.isLeap = false
  /-- Whole days lie in between. -/
  seconds : b.seconds = a.seconds + days * secondsPerDay
  /-- The nanoseconds are the same. -/
  nanos : b.nanos = a.nanos

instance (days : Int) (a b : Instant) : Decidable (Shifted days a b) :=
  decidable_of_iff
    (a.isLeap = false ∧ b.seconds = a.seconds + days * secondsPerDay ∧ b.nanos = a.nanos)
    ⟨fun h => ⟨h.1, h.2.1, h.2.2⟩, fun h => ⟨h.ordinary, h.seconds, h.nanos⟩⟩

variable {a b a' b' : Instant}

theorem Shifted.ordinary' (h : a.Shifted days b) : b.isLeap = false := by
  have ha := isLeap_eq_false_iff.1 h.ordinary
  rw [isLeap_eq_false_iff, h.nanos]
  exact ha

theorem Shifted.linear (h : a.Shifted days b) :
    b.linear = a.linear + days * 86400000000000 := by
  have hseconds := h.seconds
  rw [linear_def, linear_def, h.nanos]
  unfold secondsPerDay at hseconds
  omega

/-- Shifted instants are in the same order. -/
theorem Shifted.le_iff (h : a.Shifted days b) (h' : a'.Shifted days b') : b ≤ b' ↔ a ≤ a' := by
  rw [← linear_le_linear h.ordinary' h'.ordinary', ← linear_le_linear h.ordinary h'.ordinary,
    h.linear, h'.linear]
  omega

theorem Shifted.lt_iff (h : a.Shifted days b) (h' : a'.Shifted days b') : b < b' ↔ a < a' := by
  rw [← not_le, ← not_le, h'.le_iff h]

/-- **The span between shifted instants is the same.** -/
theorem Shifted.since (h : a.Shifted days b) (h' : a'.Shifted days b') :
    b'.since b = a'.since a := by
  rw [since_eq h'.ordinary' h.ordinary', since_eq h'.ordinary h.ordinary, h.linear, h'.linear]
  omega

/-- Shifted instants fall on days as far apart. -/
theorem Shifted.day (h : a.Shifted days b) : b.date.day = a.date.day + days := by
  show b.seconds / secondsPerDay = a.seconds / secondsPerDay + days
  have hseconds := h.seconds
  unfold secondsPerDay at hseconds ⊢
  omega

end Instant

/-! ## §2. Clocks. -/

namespace Clock

/-- The wall is shifted, and the clocks have run for the same time. -/
structure Shifted (days : Int) (c c' : Clock) : Prop where
  now : c.now.Shifted days c'.now
  elapsed : c'.elapsed = c.elapsed

variable {c c' : Clock} {t t' : Instant}

theorem shifted_startingAt (h : t.Shifted days t') :
    (startingAt t).Shifted days (startingAt t') :=
  ⟨h, rfl⟩

/-- A clock that is set shows the target, or what it showed before; if a span counts back
from both, it counts back from what is shown. -/
theorem countsBack_set {c : Clock} {span : Int} (hnow : c.now.CountsBack span)
    (ht : t.CountsBack span) : (c.set t).1.now.CountsBack span := by
  unfold Clock.set
  split
  · exact ht
  · split
    · exact hnow
    · exact ht

/-- **Clocks that are set to shifted instants have run for the same time.** -/
theorem Shifted.set (h : c.Shifted days c') (ht : t.Shifted days t') :
    (c.set t).1.Shifted days (c'.set t').1 := by
  unfold Clock.set
  rw [h.now.since ht, h.elapsed]
  cases Duration.ofSpan? (t.since c.now) with
  | none => exact ⟨ht, rfl⟩
  | some forward =>
    dsimp only
    cases c.elapsed.add? forward with
    | none => exact h
    | some elapsed => exact ⟨ht, rfl⟩

end Clock

end HeatMeter
