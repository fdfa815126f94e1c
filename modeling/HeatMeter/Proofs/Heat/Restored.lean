/-
  HeatMeter.Proofs.Heat.Restored
  ──────────────────────────────
  **WHEN THE FIRST UPDATE ROLLS A RESTORED COUNTER OVER.**

  A counter that goes on from a snapshot keeps the day of the snapshot until it
  counts a power, for the day is looked at where a power is counted.  A restored
  counter has no kind yet, so its first update counts a power only if one is above
  zero:

      a power counts     the day is that of the update, the totals are kept, and the
                         energies of another day begin anew
      no power counts    the counter stays as it was restored, day included
-/
import HeatMeter.Proofs.Heat.Energy
import HeatMeter.Proofs.Time.Instant

namespace HeatMeter

namespace HeatCounter

variable {α : Type} [Scalar α]

/-! ## §1. The power that a first update counts. -/

/-- A first update is not held by the lock, and without a kind a zero does not count. -/
theorem counted?_first_eq_none_iff {i : HeatInput α} :
    counted? none false i = none
      ↔ ¬ (0 < (assign i.mode i.power).heating ∨ 0 < (assign i.mode i.power).cooling) := by
  have hgate : gate none false i.running (assign i.mode i.power)
      = (false, assign i.mode i.power) := by
    cases i.running <;> rfl
  unfold counted? choose?
  rw [← assign_eq, hgate]
  dsimp only
  split
  next hheating => simp [hheating]
  next hheating =>
    split
    next hcooling => simp [hcooling]
    next hcooling => simp [hheating, hcooling]

/-- The first power counted adds nothing: there is no baseline to count from. -/
theorem incrementOf_first (k : HeatKind) (x : Counted α) : incrementOf k none x = [] := by
  unfold incrementOf increment
  split <;> rfl

/-! ## §2. The first update of a restored counter. -/

section

variable (s : EnergySnapshot α) (start : Instant) {i : HeatInput α}

/-- **Where no power counts a restored counter stays as it is.** -/
theorem take_restore_of_none (h : counted? none false i = none) :
    (restore s start).take i = restore s start := by
  have hlock : lockedAfter (none : Option HeatKind) false i = false := by
    unfold lockedAfter gate
    cases i.running <;> rfl
  rw [take_of_none h]
  show { restore s start with locked := lockedAfter none false i } = restore s start
  rw [hlock]
  rfl

/-- **Where a power counts the totals are kept and the day is that of the update**, its
energies begun anew if the snapshot is of another day. -/
theorem take_restore_of_some {x : Counted α} (h : counted? none false i = some x) :
    ((restore s start).take i).resetDate = i.time.date
      ∧ ((restore s start).take i).total = (restore s start).total
      ∧ ((restore s start).take i).daily = (restore s start).dailyOn i.time := by
  obtain ⟨hremembers, -⟩ := beginning_remembers (some s) start
  have htime : x.time = i.time := time_of_counted? h
  refine ⟨?_, ?_, ?_⟩
  · rw [resetDate_take h, htime]
  · apply ByKind.ext_get
    intro k
    have htotal := hremembers.total_take h k
    rw [incrementOf_first, List.foldl_nil] at htotal
    exact htotal
  · apply ByKind.ext_get
    intro k
    have hdaily := hremembers.daily_take h k
    rw [incrementOf_first, List.foldl_nil, htime] at hdaily
    exact hdaily

end

/-- **When the first update rolls a restored counter over**: exactly where a power of it
counts, or the counter is of that day already. -/
theorem first_update_rolls_over_iff (s : EnergySnapshot α) (start : Instant)
    (i : HeatInput α) :
    (((restore s start).take i).resetDate = i.time.date
      ∧ ∀ day ∈ s.resetDate, day ≠ i.time.date →
          ((restore s start).take i).daily = .both 0
            ∧ ((restore s start).take i).total = ⟨s.totalHeating, s.totalCooling⟩)
    ↔ 0 < (assign i.mode i.power).heating ∨ 0 < (assign i.mode i.power).cooling
      ∨ s.resetDate.getD start.date = i.time.date := by
  have hday : (restore s start).resetDate = s.resetDate.getD start.date := rfl
  rw [← or_assoc]
  cases hcounted : counted? none false i with
  | none =>
    -- nothing has changed, so only a counter of that day is of that day
    have hpowers := counted?_first_eq_none_iff.1 hcounted
    rw [take_restore_of_none s start hcounted, hday, or_iff_right hpowers]
    constructor
    · exact fun h => h.1
    · intro hsame
      refine ⟨hsame, ?_⟩
      intro day hmem hother
      rw [Option.mem_def] at hmem
      rw [hmem, Option.getD_some] at hsame
      exact absurd hsame hother
  | some x =>
    have hpowers : 0 < (assign i.mode i.power).heating
        ∨ 0 < (assign i.mode i.power).cooling := by
      by_contra hnone
      rw [counted?_first_eq_none_iff.2 hnone] at hcounted
      exact absurd hcounted (by simp)
    obtain ⟨hreset, htotal, hdaily⟩ := take_restore_of_some s start hcounted
    refine iff_of_true ⟨hreset, ?_⟩ (.inl hpowers)
    intro day hmem hother
    rw [Option.mem_def] at hmem
    -- the restored counter is of the day of the snapshot, which is another one
    have hstale : ¬ i.time.date = (restore s start).resetDate := by
      rw [hday, hmem, Option.getD_some]
      exact Ne.symm hother
    refine ⟨?_, htotal⟩
    rw [hdaily, dailyOn, if_neg hstale]

/-- Counters kept on the day before the first one counted. -/
def keptYesterday : EnergySnapshot Float where
  dailyHeating := 5
  totalHeating := 500
  dailyCooling := 0
  totalCooling := 0
  resetDate := some ⟨-1, by decide⟩

/-- An update of a unit at rest. -/
def idle : HeatInput Float := ⟨⟨0, 0⟩, false, none, .ofFirstDay 0⟩

/-- **A first update of a unit at rest leaves a counter of yesterday on yesterday**, its
energy of that day included. -/
theorem first_update_idle_keeps_yesterday :
    keptYesterday.resetDate ≠ some idle.time.date
      ∧ ((restore keptYesterday (.ofFirstDay 0)).take idle).resetDate ≠ idle.time.date
      ∧ 0 < ((restore keptYesterday (.ofFirstDay 0)).take idle).daily.heating := by
  decide +kernel

end HeatCounter

end HeatMeter
