/-
  HeatMeter.Proofs.Program
  ────────────────────────
  **A RUN THAT FAILS LEAVES THE DISK AS IT WAS.**

  A run takes one step after another, and any of them may be the last:

      configuration    a file or a variable that cannot be understood, a setting that
                       is not acceptable
      records          a log that is not there, is no text or has no record in it
      snapshot         a file of counters that cannot be read
      writeSnapshot    a path that no file can be written to

  None but the last touches the disk, and that one only if it succeeds.  `run_cases`
  says how a run can end; what a write leaves is `Disk.writtenAt_of_write`, and what is
  read from other paths then `Disk.WrittenAt.read_iff`.
-/
import HeatMeter.Proofs.Meter.Saved

namespace HeatMeter.Program

/-! ## §1. How a run ends. -/

theorem exitCode_eq_zero_iff (o : Outcome) : o.exitCode = 0 ↔ o.failure = none := by
  unfold Outcome.exitCode
  cases o.failure with
  | none => exact iff_of_true rfl rfl
  | some failure => simp

/-- **A run fails on an untouched disk, or meters its log and keeps the counters where it
is told to.** -/
theorem run_cases (d : Disk) (env : Configuration.Environment) :
    (∃ printed failure, run d env = ⟨printed, some failure, d⟩)
      ∨ ∃ c m, configuration d env = .ok c ∧ metered c d = .ok m
        ∧ ((c.snapshot = none ∧ run d env = ⟨summaryText m, none, d⟩)
          ∨ ∃ path written, c.snapshot = some path
            ∧ writeSnapshot d path m.snapshot = .ok written
            ∧ run d env = ⟨summaryText m, none, written⟩) := by
  unfold run
  cases hc : configuration d env with
  | error failure => exact .inl ⟨_, failure, rfl⟩
  | ok c =>
    dsimp only
    cases hm : metered c d with
    | error failure => exact .inl ⟨_, failure, rfl⟩
    | ok m =>
      dsimp only [finish]
      cases hpath : c.snapshot with
      | none => exact .inr ⟨c, m, rfl, hm, .inl ⟨hpath, rfl⟩⟩
      | some path =>
        dsimp only
        cases hwrite : writeSnapshot d path m.snapshot with
        | error failure => exact .inl ⟨_, failure, rfl⟩
        | ok written => exact .inr ⟨c, m, rfl, hm, .inr ⟨path, written, hpath, hwrite, rfl⟩⟩

/-! ## §2. The disk afterwards. -/

theorem writtenAt_of_writeSnapshot {d written : Disk} {path : String}
    {s : EnergySnapshot Float} (h : writeSnapshot d path s = .ok written) :
    ∃ l, d.locate path = .ok l ∧ Disk.WrittenAt l d written := by
  unfold writeSnapshot at h
  split at h
  next hwrite =>
    cases h
    exact Disk.writtenAt_of_write hwrite
  next => cases h

/-- **A run changes one file at most.**  A run that fails leaves the disk as it was.  One
that succeeds changes the file of its counters, at the path configured, and no other: what
can be read from any other path is what could be read from it before.  Where no path is
configured it changes no file. -/
theorem run_changes_snapshot_alone (d : Disk) (env : Configuration.Environment) :
    ((run d env).exitCode ≠ 0 → (run d env).disk = d)
      ∧ ((run d env).exitCode = 0 → ∃ c, configuration d env = .ok c
        ∧ (c.snapshot = none → (run d env).disk = d)
        ∧ ∀ path ∈ c.snapshot, ∃ l, d.locate path = .ok l
          ∧ Disk.WrittenAt l d (run d env).disk
          ∧ ∀ other, d.locate other ≠ .ok l →
            ∀ bytes, (run d env).disk.read other = .ok bytes ↔ d.read other = .ok bytes) := by
  rw [Ne, exitCode_eq_zero_iff]
  rcases run_cases d env with ⟨printed, failure, hrun⟩ | ⟨c, m, hc, -, hend⟩
  · rw [hrun]
    exact ⟨fun _ => rfl, fun h => absurd h (by simp)⟩
  · rcases hend with ⟨hnone, hrun⟩ | ⟨path, written, hpath, hwrite, hrun⟩
    · rw [hrun]
      refine ⟨fun _ => rfl, fun _ => ⟨c, hc, fun _ => rfl, ?_⟩⟩
      intro path hpath
      rw [hnone] at hpath
      cases hpath
    · rw [hrun]
      refine ⟨fun h => absurd rfl h, fun _ => ⟨c, hc, ?_, ?_⟩⟩
      · intro hnone
        rw [hpath] at hnone
        cases hnone
      · intro other hother
        obtain rfl : path = other := Option.some.inj (hpath.symm.trans hother)
        obtain ⟨l, hl, hwritten⟩ := writtenAt_of_writeSnapshot hwrite
        exact ⟨l, hl, hwritten, fun elsewhere hpath bytes => hwritten.read_iff hpath⟩

/-- A run that leaves a file behind, its log untouched, and the next one, which cannot read
the file. -/
theorem run_changes_snapshot_alone_of_overflowingLog :
    (∃ l, (beside (Text.Utf8.encode overflowingLog) none).locate "energy.json" = .ok l
        ∧ Disk.WrittenAt l (beside (Text.Utf8.encode overflowingLog) none)
          (run (beside (Text.Utf8.encode overflowingLog) none) keeping).disk)
      ∧ (run (beside (Text.Utf8.encode overflowingLog) none) keeping).disk.read "log.jsonl"
        = .ok (Text.Utf8.encode overflowingLog)
      ∧ (run (run (beside (Text.Utf8.encode overflowingLog) none) keeping).disk
        keeping).exitCode = 1
      ∧ (run (run (beside (Text.Utf8.encode overflowingLog) none) keeping).disk keeping).disk
        = (run (beside (Text.Utf8.encode overflowingLog) none) keeping).disk := by
  obtain ⟨hfirst, -, hnext⟩ :=
    next_run_refused read?_overflowingLog rfl not_finite_overflowingMinute
  have hconfiguration := configuration_keeping
    (read_configuration_beside (Text.Utf8.encode overflowingLog) none)
  have hfails : (run (run (beside (Text.Utf8.encode overflowingLog) none) keeping).disk
      keeping).exitCode = 1 := by
    rw [Outcome.exitCode, hnext]
    rfl
  obtain ⟨c, hc, -, hkept⟩ := (run_changes_snapshot_alone
    (beside (Text.Utf8.encode overflowingLog) none) keeping).2
    ((exitCode_eq_zero_iff _).2 hfirst)
  obtain rfl := Except.ok.inj (hconfiguration.symm.trans hc)
  obtain ⟨l, hl, hwritten, hothers⟩ := hkept "energy.json" rfl
  -- the log lies elsewhere
  have helsewhere : (beside (Text.Utf8.encode overflowingLog) none).locate "log.jsonl"
      ≠ .ok l := by
    rw [← hl]
    decide +kernel
  refine ⟨⟨l, hl, hwritten⟩, ?_, hfails, ?_⟩
  · exact (hothers "log.jsonl" helsewhere _).2 (read_beside _ none)
  · exact (run_changes_snapshot_alone _ keeping).1 (by rw [hfails]; decide)

end HeatMeter.Program
