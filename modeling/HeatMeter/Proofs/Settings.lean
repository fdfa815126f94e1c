/-
  HeatMeter.Proofs.Settings
  ─────────────────────────
  **WHAT ACCEPTED SETTINGS PROMISE THE WINDOW AND THE WATCH.**

  A section has no fault exactly if none of its comparisons holds.  So settings without a
  fault have a retention between a minute and a year, which is a span in whole seconds,
  and room for two samples at least; and they require a settled reading before a recovery
  ends.
-/
import HeatMeter.Settings.Check

namespace HeatMeter

variable {α : Type}

theorem CopSettings.retention_eq {c : CopSettings α} (hpos : 0 < c.retentionMinutes)
    (hyear : c.retentionMinutes ≤ 525600) :
    c.retention = c.retentionMinutes * 60 * 1000000000 := by
  unfold retention
  dsimp only
  rw [if_pos (by omega)]
  rfl

theorem CopSettings.nanos_minInterval {c : CopSettings α}
    (h : c.minIntervalSeconds ≤ 9223372036854775807) :
    c.minInterval.nanos = c.minIntervalSeconds * 1000000000 := by
  show min (c.minIntervalSeconds * nanosPerSecond) Duration.longestNanos = _
  unfold nanosPerSecond Duration.longestNanos
  omega

theorem Settings.defrostFault?_eq_none_iff {d : DefrostSettings α} :
    defrostFault? d = none ↔ 1 ≤ d.stableReadingsRequired := by
  unfold defrostFault?
  simp [Nat.one_le_iff_ne_zero]

theorem Settings.compressorFault?_eq_none_iff {c : CompressorSettings} :
    (compressorFault? c : Option (SettingFault α)) = none ↔ 1 ≤ c.maxHistory := by
  unfold compressorFault?
  simp [Nat.one_le_iff_ne_zero]

variable [Scalar α]

/-- Settings have no fault where no section has one. -/
theorem Settings.fault?_eq_none_iff {s : Settings α} :
    s.fault? = none ↔ waterFault? s.water = none ∧ electricalFault? s.electrical = none
      ∧ copFault? s.cop = none ∧ defrostFault? s.defrost = none
      ∧ (compressorFault? s.compressor : Option (SettingFault α)) = none := by
  unfold fault?
  simp

/-- Checks in a row find nothing exactly if none does. -/
theorem check_eq_none_iff {β : Type} {p : Prop} [Decidable p] {fault : β} {rest : Option β} :
    (if p then some fault else rest) = none ↔ ¬ p ∧ rest = none := by
  by_cases hp : p <;> simp [hp]

theorem Settings.waterFault?_eq_none_iff {w : WaterSettings α} :
    waterFault? w = none ↔ ¬ w.specificHeat ≤ 0 ∧ ¬ w.flowToKgPerSecond ≤ 0 := by
  unfold waterFault?
  rw [check_eq_none_iff, not_or]
  simp

theorem Settings.electricalFault?_eq_none_iff {e : ElectricalSettings α} :
    electricalFault? e = none ↔ ¬ e.powerFactor ≤ 0 ∧ ¬ Scalar.ofInt 1 < e.powerFactor
      ∧ ∀ v ∈ e.voltage, ¬ v ≤ 0 := by
  unfold electricalFault?
  rw [check_eq_none_iff, not_or, and_assoc]
  cases e.voltage <;> simp

theorem Settings.boundsFault?_eq_none_iff {what : Bounded} {low high : α} :
    boundsFault? what low high = none ↔ ¬ high ≤ low := by
  unfold boundsFault?
  simp

theorem Settings.copFault?_eq_none_iff {c : CopSettings α} :
    copFault? c = none ↔ 0 < c.retentionMinutes ∧ c.retentionMinutes ≤ 525600
      ∧ 2 ≤ c.maxMeasurements ∧ ¬ c.maxThermalEnergy ≤ c.minThermalEnergy
      ∧ ¬ c.maxElectricalEnergy ≤ c.minElectricalEnergy ∧ ¬ c.maxCop ≤ c.minCop
      ∧ ¬ c.preliminaryCount < c.insufficientCount
      ∧ ¬ c.preliminarySpanMinutes < c.insufficientSpanMinutes := by
  unfold copFault? maxRetentionMinutes
  rw [check_eq_none_iff, check_eq_none_iff, check_eq_none_iff, Int.not_le, Int.not_lt,
    Nat.not_lt]
  simp only [Option.orElse_eq_orElse, Option.orElse_eq_or, Option.or_eq_none_iff,
    boundsFault?_eq_none_iff, check_eq_none_iff, not_or, and_true]

/-- A window section without a fault bounds the retention and the capacity. -/
theorem Settings.cop_bounds {s : Settings α} (h : s.fault? = none) :
    0 < s.cop.retentionMinutes ∧ s.cop.retentionMinutes ≤ 525600
      ∧ 2 ≤ s.cop.maxMeasurements := by
  obtain ⟨hpos, hyear, hroom, -⟩ := copFault?_eq_none_iff.1 (fault?_eq_none_iff.1 h).2.2.1
  exact ⟨hpos, hyear, hroom⟩

theorem Settings.retention_pos {s : Settings α} (h : s.fault? = none) :
    0 < s.cop.retention := by
  obtain ⟨hpos, hyear, -⟩ := cop_bounds h
  rw [CopSettings.retention_eq hpos hyear]
  omega

/-- A defrost section without a fault requires a settled reading. -/
theorem Settings.stableReadingsRequired_pos {s : Settings α} (h : s.fault? = none) :
    1 ≤ s.defrost.stableReadingsRequired :=
  defrostFault?_eq_none_iff.1 (fault?_eq_none_iff.1 h).2.2.2.1

end HeatMeter
