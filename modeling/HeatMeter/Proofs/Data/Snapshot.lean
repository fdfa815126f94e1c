/-
  HeatMeter.Proofs.Data.Snapshot
  ──────────────────────────────
  **A SNAPSHOT THAT WAS SAVED IS READ BACK IF ITS COUNTERS ARE FINITE, AND ONLY THEN.**

  The file of a snapshot is read back as it was written, text and number for number.
  But an infinite counter or a NaN is written as `null`, and that is no counter: such
  a file is refused as a whole, though it was saved without complaint.  No other file
  gives such a counter either, as a number beyond the floats is refused too.

      ofJson?_written      the snapshot in what is written of a snapshot
      snapshot_of_write    the snapshot at a path after it was saved there
      finite_of_snapshot   the counters of any file that is accepted
-/
import HeatMeter.Program
import HeatMeter.Proofs.Disk
import HeatMeter.Proofs.Heat.Growth
import HeatMeter.Proofs.Json.Integers
import HeatMeter.Proofs.Json.RoundTrip
import HeatMeter.Proofs.Text.Utf8
import HeatMeter.Proofs.Time.Text

namespace HeatMeter

open Json (written)

/-! ## §1. Documents of files. -/

/-- **The bytes of a text are parsed as the text.** -/
theorem Json.parseBytes_encode (s : String) :
    Json.parseBytes (Text.Utf8.encode s) = Json.parse s.toList := by
  unfold Json.parseBytes
  rw [Text.Utf8.decode_encode, List.flatMap_map]
  congr 1
  exact List.flatMap_singleton' _

/-! ## §2. The fields of a snapshot. -/

namespace EnergySnapshot

/-- A counter that is written is read back if it is finite, and is no counter otherwise. -/
theorem asFloat_written (x : Float) :
    (written (.real x)).asFloat = if x.isFinite then some x else none := by
  rw [written]
  cases h : x.isFinite with
  | true =>
    rw [if_pos rfl, if_pos rfl, Json.asFloat, if_pos h]
  | false => rfl

/-- The day that is written is read back. -/
theorem asDate_written (day : Option Date) :
    (written (.ofOption Date.toJson day)).asOptional Date.ofJson? = some day := by
  cases day with
  | none => rfl
  | some d =>
    have htext : written d.toJson = .text (String.ofList d.text) := rfl
    have hread : Date.ofJson? (.text (String.ofList d.text)) = some d := by
      show Date.read? (String.ofList d.text).toList = some d
      rw [String.toList_ofList, Date.read?_text]
    show (written d.toJson).asOptional Date.ofJson? = some (some d)
    rw [htext]
    show (Date.ofJson? (.text (String.ofList d.text))).map some = _
    rw [hread]
    rfl

/-- The fields of a record that was written are found under their names. -/
theorem ofJson?_written (s : EnergySnapshot Float) :
    ofJson? (written s.toJson) = do
      return {
        dailyHeating := ← (written (.real s.dailyHeating)).asFloat
        totalHeating := ← (written (.real s.totalHeating)).asFloat
        dailyCooling := ← (written (.real s.dailyCooling)).asFloat
        totalCooling := ← (written (.real s.totalCooling)).asFloat
        resetDate := ← (written (.ofOption Date.toJson s.resetDate)).asOptional Date.ofJson? } :=
  rfl

/-- **Finite counters are read back.** -/
theorem ofJson?_written_of_finite {s : EnergySnapshot Float} (h : s.Finite) :
    ofJson? (written s.toJson) = some s := by
  rw [ofJson?_written, asFloat_written, asFloat_written, asFloat_written, asFloat_written,
    asDate_written, if_pos h.dailyHeating, if_pos h.totalHeating, if_pos h.dailyCooling,
    if_pos h.totalCooling]
  rfl

/-- **A snapshot with a counter that is not finite is refused.** -/
theorem ofJson?_written_of_not_finite {s : EnergySnapshot Float} (h : ¬ s.Finite) :
    ofJson? (written s.toJson) = none := by
  rw [ofJson?_written, asFloat_written, asFloat_written, asFloat_written, asFloat_written]
  by_cases hdh : s.dailyHeating.isFinite = true
  swap
  · rw [if_neg hdh]
    rfl
  by_cases hth : s.totalHeating.isFinite = true
  swap
  · rw [if_pos hdh, if_neg hth]
    rfl
  by_cases hdc : s.dailyCooling.isFinite = true
  swap
  · rw [if_pos hdh, if_pos hth, if_neg hdc]
    rfl
  by_cases htc : s.totalCooling.isFinite = true
  swap
  · rw [if_pos hdh, if_pos hth, if_pos hdc, if_neg htc]
    rfl
  · exact absurd ⟨hdh, hth, hdc, htc⟩ h

/-- A counter in a file is finite, given or not. -/
theorem finite_of_withDefault {f : Json.Fields} {name : String} {x : Float}
    (hf : ∀ e ∈ f, Json.Fits e.2) (h : f.withDefault name 0 Json.asFloat = some x) :
    x.isFinite = true := by
  unfold Json.Fields.withDefault at h
  split at h
  next y hy =>
    obtain ⟨before, after, rfl, -⟩ := List.lookup_eq_some_iff.1 hy
    exact Json.asFloat_finite (hf (name, y) (by simp)) h
  next =>
    rw [← Option.some.inj h]
    rfl

/-- **The counters of a snapshot that was read are finite.** -/
theorem finite_of_ofJson? {text : List Char} {x : Json} {s : EnergySnapshot Float}
    (hx : Json.parse text = some x) (h : ofJson? x = some s) : s.Finite := by
  unfold ofJson? at h
  obtain ⟨f, hfields, h⟩ := Option.bind_eq_some_iff.1 h
  have hf := Json.fields_fits hx hfields
  obtain ⟨dailyHeating, hdh, h⟩ := Option.bind_eq_some_iff.1 h
  obtain ⟨totalHeating, hth, h⟩ := Option.bind_eq_some_iff.1 h
  obtain ⟨dailyCooling, hdc, h⟩ := Option.bind_eq_some_iff.1 h
  obtain ⟨totalCooling, htc, h⟩ := Option.bind_eq_some_iff.1 h
  obtain ⟨resetDate, -, h⟩ := Option.bind_eq_some_iff.1 h
  rw [← Option.some.inj h]
  exact ⟨finite_of_withDefault hf hdh, finite_of_withDefault hf hth,
    finite_of_withDefault hf hdc, finite_of_withDefault hf htc⟩

end EnergySnapshot

/-! ## §3. Files of snapshots. -/

namespace Program

variable {d written : Disk} {path : String} {s : EnergySnapshot Float}

/-- The document in the file of a snapshot. -/
theorem snapshot_of_write (h : writeSnapshot d path s = .ok written) :
    snapshot written path = match EnergySnapshot.ofJson? (Json.written s.toJson) with
      | some kept => .ok (some kept)
      | none => .error .snapshot := by
  have hwrite : d.write path (Text.Utf8.encode (snapshotText s)) = .ok written := by
    unfold writeSnapshot at h
    split at h
    next heq =>
      rw [heq]
      exact congrArg _ (Except.ok.inj h)
    next => cases h
  have hparse : Json.parseBytes (Text.Utf8.encode (snapshotText s))
      = some (Json.written s.toJson) := by
    rw [Json.parseBytes_encode, snapshotText, String.toList_ofList, Json.parse_pretty]
  unfold snapshot
  rw [if_pos (Disk.contains_write hwrite), Disk.read_write hwrite]
  show (match (Json.parseBytes (Text.Utf8.encode (snapshotText s))).bind EnergySnapshot.ofJson? with
    | some kept => Except.ok (some kept)
    | none => Except.error Failure.snapshot) = _
  rw [hparse]
  rfl

/-- **Finite counters that were saved are read back.** -/
theorem snapshot_of_write_of_finite (h : writeSnapshot d path s = .ok written) (hs : s.Finite) :
    snapshot written path = .ok (some s) := by
  rw [snapshot_of_write h, EnergySnapshot.ofJson?_written_of_finite hs]

/-- **A file of counters that are not all finite is refused.** -/
theorem snapshot_of_write_of_not_finite (h : writeSnapshot d path s = .ok written)
    (hs : ¬ s.Finite) : snapshot written path = .error .snapshot := by
  rw [snapshot_of_write h, EnergySnapshot.ofJson?_written_of_not_finite hs]

/-- **A file that is accepted has finite counters.** -/
theorem finite_of_snapshot {kept : Option (EnergySnapshot Float)}
    (h : snapshot d path = .ok kept) : ∀ s ∈ kept, s.Finite := by
  unfold snapshot at h
  split at h
  next =>
    split at h
    next s hs =>
      obtain ⟨x, hx, hs⟩ := Option.bind_eq_some_iff.1 hs
      obtain ⟨bytes, -, hx⟩ := Option.bind_eq_some_iff.1 hx
      intro s' hs'
      rw [← Except.ok.inj h, Option.mem_some_iff] at hs'
      rw [← hs']
      exact EnergySnapshot.finite_of_ofJson? hx hs
    next => cases h
  next =>
    intro s hs
    rw [← Except.ok.inj h] at hs
    cases hs

end Program

end HeatMeter
