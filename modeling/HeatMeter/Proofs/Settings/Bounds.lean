/-
  HeatMeter.Proofs.Settings.Bounds
  ────────────────────────────────
  **WHICH ACCEPTED SETTINGS KEEP THEIR BOUNDS.**

  Every bound is checked by looking for a comparison that breaks it.  Between numbers one
  comparison holds exactly if its converse fails; a NaN breaks no bound and keeps none:

      bound      checked by       kept by a number    by a NaN
      0 < x      not x ≤ 0        where it passes     never, and it passes
      x ≤ y      not y < x        where it passes     never, and it passes

  So settings keep all their bounds exactly if they are accepted and no quantity that is
  checked is a NaN, `withinBounds_iff`.
-/
import HeatMeter.Configuration
import HeatMeter.Proofs.Scalar.Order
import HeatMeter.Proofs.Settings

namespace HeatMeter.Settings

/-! ## §1. The bounds, and what is compared with them. -/

section

variable {α : Type}

/-- The quantities that are compared with a bound. -/
def compared (s : Settings α) : List α :=
  [s.water.specificHeat, s.water.flowToKgPerSecond, s.electrical.powerFactor]
    ++ s.electrical.voltage.toList
    ++ [s.cop.minThermalEnergy, s.cop.maxThermalEnergy, s.cop.minElectricalEnergy,
      s.cop.maxElectricalEnergy, s.cop.minCop, s.cop.maxCop, s.cop.insufficientSpanMinutes,
      s.cop.preliminarySpanMinutes]

theorem forall_mem_compared {s : Settings α} {p : α → Prop} :
    (∀ x ∈ s.compared, p x)
      ↔ (p s.water.specificHeat ∧ p s.water.flowToKgPerSecond ∧ p s.electrical.powerFactor)
        ∧ (∀ v ∈ s.electrical.voltage, p v)
        ∧ (p s.cop.minThermalEnergy ∧ p s.cop.maxThermalEnergy)
        ∧ (p s.cop.minElectricalEnergy ∧ p s.cop.maxElectricalEnergy)
        ∧ (p s.cop.minCop ∧ p s.cop.maxCop)
        ∧ p s.cop.insufficientSpanMinutes ∧ p s.cop.preliminarySpanMinutes := by
  unfold compared
  simp only [List.forall_mem_append, List.forall_mem_cons, List.not_mem_nil, false_implies,
    implies_true, and_true, Option.mem_toList, Option.mem_def, and_assoc]

variable [Scalar α]

/-- Settings that keep every bound. -/
structure WithinBounds (s : Settings α) : Prop where
  /-- Specific heat is positive. -/
  specificHeat : 0 < s.water.specificHeat
  /-- The factor of the flow is positive. -/
  flowToKgPerSecond : 0 < s.water.flowToKgPerSecond
  /-- The power factor is above zero and at most one. -/
  powerFactor : 0 < s.electrical.powerFactor ∧ s.electrical.powerFactor ≤ Scalar.ofInt 1
  /-- A voltage that is set is positive. -/
  voltage : ∀ v ∈ s.electrical.voltage, 0 < v
  /-- The retention is between a minute and a year. -/
  retentionMinutes : 1 ≤ s.cop.retentionMinutes ∧ s.cop.retentionMinutes ≤ 525600
  /-- There is room for two samples. -/
  maxMeasurements : 2 ≤ s.cop.maxMeasurements
  /-- The bounds of the thermal energy leave something between them. -/
  thermalEnergy : s.cop.minThermalEnergy < s.cop.maxThermalEnergy
  /-- So do those of the electrical energy. -/
  electricalEnergy : s.cop.minElectricalEnergy < s.cop.maxElectricalEnergy
  /-- So do those of the coefficient. -/
  cop : s.cop.minCop < s.cop.maxCop
  /-- What is preliminary has as many samples as what is insufficient. -/
  count : s.cop.insufficientCount ≤ s.cop.preliminaryCount
  /-- And takes as long. -/
  spanMinutes : s.cop.insufficientSpanMinutes ≤ s.cop.preliminarySpanMinutes
  /-- A settled reading is required. -/
  stableReadingsRequired : 1 ≤ s.defrost.stableReadingsRequired
  /-- A duration is kept. -/
  maxHistory : 1 ≤ s.compressor.maxHistory

/-- Settings are accepted exactly if no comparison breaks a bound. -/
theorem accepted_iff {s : Settings α} :
    s.fault? = none
      ↔ (¬ s.water.specificHeat ≤ 0 ∧ ¬ s.water.flowToKgPerSecond ≤ 0)
        ∧ (¬ s.electrical.powerFactor ≤ 0 ∧ ¬ Scalar.ofInt 1 < s.electrical.powerFactor
          ∧ ∀ v ∈ s.electrical.voltage, ¬ v ≤ 0)
        ∧ (0 < s.cop.retentionMinutes ∧ s.cop.retentionMinutes ≤ 525600
          ∧ 2 ≤ s.cop.maxMeasurements ∧ ¬ s.cop.maxThermalEnergy ≤ s.cop.minThermalEnergy
          ∧ ¬ s.cop.maxElectricalEnergy ≤ s.cop.minElectricalEnergy
          ∧ ¬ s.cop.maxCop ≤ s.cop.minCop
          ∧ ¬ s.cop.preliminaryCount < s.cop.insufficientCount
          ∧ ¬ s.cop.preliminarySpanMinutes < s.cop.insufficientSpanMinutes)
        ∧ 1 ≤ s.defrost.stableReadingsRequired ∧ 1 ≤ s.compressor.maxHistory := by
  rw [fault?_eq_none_iff, waterFault?_eq_none_iff, electricalFault?_eq_none_iff,
    copFault?_eq_none_iff, defrostFault?_eq_none_iff, compressorFault?_eq_none_iff]

end

/-! ## §2. Floats, which may be no numbers. -/

open FloatLaws

theorem pos_iff {x : Float} : 0 < x ↔ x.isNaN = false ∧ ¬ x ≤ 0 := by
  have hzero : (0 : Float).isNaN = false := by decide
  rw [lt_iff_not_le, hzero]
  simp

theorem le_one_iff {x : Float} :
    x ≤ Scalar.ofInt 1 ↔ x.isNaN = false ∧ ¬ Scalar.ofInt 1 < x := by
  have hone : (Scalar.ofInt 1 : Float).isNaN = false := by decide
  rw [le_iff_not_lt, hone]
  simp

/-- Settings that keep their bounds are accepted. -/
theorem WithinBounds.fault?_eq_none {s : Settings Float} (h : s.WithinBounds) :
    s.fault? = none := by
  refine accepted_iff.2 ⟨⟨(pos_iff.1 h.specificHeat).2, (pos_iff.1 h.flowToKgPerSecond).2⟩,
    ⟨(pos_iff.1 h.powerFactor.1).2, (le_one_iff.1 h.powerFactor.2).2,
      fun v hv => (pos_iff.1 (h.voltage v hv)).2⟩, ?_,
    h.stableReadingsRequired, h.maxHistory⟩
  exact ⟨h.retentionMinutes.1, h.retentionMinutes.2, h.maxMeasurements,
    (lt_iff_not_le.1 h.thermalEnergy).2.2, (lt_iff_not_le.1 h.electricalEnergy).2.2,
    (lt_iff_not_le.1 h.cop).2.2, not_lt.2 h.count, (le_iff_not_lt.1 h.spanMinutes).2.2⟩

/-- What keeps a bound is a number. -/
theorem WithinBounds.isNaN {s : Settings Float} (h : s.WithinBounds) :
    ∀ x ∈ s.compared, x.isNaN = false := by
  -- both sides of a comparison that holds are numbers
  have hsides {x y : Float} (hlt : x < y) : x.isNaN = false ∧ y.isNaN = false :=
    ⟨(lt_iff_not_le.1 hlt).1, (lt_iff_not_le.1 hlt).2.1⟩
  obtain ⟨hinsufficient, hpreliminary, -⟩ := le_iff_not_lt.1 h.spanMinutes
  exact forall_mem_compared.2 ⟨⟨(hsides h.specificHeat).2, (hsides h.flowToKgPerSecond).2,
      (hsides h.powerFactor.1).2⟩, fun v hv => (hsides (h.voltage v hv)).2,
    hsides h.thermalEnergy, hsides h.electricalEnergy, hsides h.cop, hinsufficient,
    hpreliminary⟩

/-- **Settings keep all their bounds exactly if they are accepted and no quantity that is
checked is a NaN.** -/
theorem withinBounds_iff (s : Settings Float) :
    s.WithinBounds ↔ s.fault? = none ∧ ∀ x ∈ s.compared, x.isNaN = false := by
  refine ⟨fun h => ⟨h.fault?_eq_none, h.isNaN⟩, ?_⟩
  rintro ⟨haccepted, hnumbers⟩
  obtain ⟨⟨hheat, hflow⟩, ⟨hfactor, hone, hvoltage⟩, ⟨hminute, hyear, hroom, hthermal,
    helectrical, hcop, hcount, hspan⟩, hstable, hhistory⟩ := accepted_iff.1 haccepted
  obtain ⟨⟨nheat, nflow, nfactor⟩, nvoltage, nthermal, nelectrical, ncop, ninsufficient,
    npreliminary⟩ := forall_mem_compared.1 hnumbers
  exact {
    specificHeat := pos_iff.2 ⟨nheat, hheat⟩
    flowToKgPerSecond := pos_iff.2 ⟨nflow, hflow⟩
    powerFactor := ⟨pos_iff.2 ⟨nfactor, hfactor⟩, le_one_iff.2 ⟨nfactor, hone⟩⟩
    voltage := fun v hv => pos_iff.2 ⟨nvoltage v hv, hvoltage v hv⟩
    retentionMinutes := ⟨hminute, hyear⟩
    maxMeasurements := hroom
    thermalEnergy := lt_iff_not_le.2 ⟨nthermal.1, nthermal.2, hthermal⟩
    electricalEnergy := lt_iff_not_le.2 ⟨nelectrical.1, nelectrical.2, helectrical⟩
    cop := lt_iff_not_le.2 ⟨ncop.1, ncop.2, hcop⟩
    count := not_lt.1 hcount
    spanMinutes := le_iff_not_lt.2 ⟨ninsufficient, npreliminary, hspan⟩
    stableReadingsRequired := hstable
    maxHistory := hhistory }

/-! ## §3. A power factor that is no number. -/

/-- An environment that sets the power factor, and sets it to no number. -/
def factorless : Configuration.Environment :=
  [("HEATPUMP__METRICS__ELECTRICAL__POWER_FACTOR", "NaN")]

/-- The standard settings without a power factor. -/
def withoutFactor : Settings Float :=
  { Settings.standard with
    electrical := { ElectricalSettings.standard with powerFactor := 0 / 0 } }

theorem table?_factorless : Configuration.table? none factorless
    = some [("metrics", .table [("electrical",
      .table [("power_factor", .text "NaN".toList)])])] := by
  have hvalues : factorless.values
      = [("metrics.electrical.power_factor".toList, .text "NaN".toList)] := rfl
  have hpath : Configuration.Path.ofKey "metrics.electrical.power_factor".toList
      = ⟨"metrics", [.entry "electrical", .entry "power_factor"]⟩ := by
    decide +kernel
  unfold Configuration.table?
  rw [hvalues]
  simp only [Configuration.layAll, List.map_nil, List.foldl_nil, List.foldl_cons,
    Option.map_some, hpath]
  rfl

/-- **A power factor that is no number is accepted**, from an environment that says so. -/
theorem not_withinBounds_of_factorless :
    Configuration.load none factorless = .ok ⟨withoutFactor, Configuration.standardInput, none⟩
      ∧ withoutFactor.fault? = none ∧ ¬ withoutFactor.WithinBounds := by
  have hfault : withoutFactor.fault? = none := by decide +kernel
  have hread : Configuration.ofTable? [("metrics", .table [("electrical",
      .table [("power_factor", .text "NaN".toList)])])]
        = some ⟨withoutFactor, Configuration.standardInput, none⟩ := rfl
  refine ⟨?_, hfault, fun h => absurd h.powerFactor.1 (by decide)⟩
  unfold Configuration.load
  rw [table?_factorless, Option.bind_some, hread]
  dsimp only
  rw [hfault]

end HeatMeter.Settings
