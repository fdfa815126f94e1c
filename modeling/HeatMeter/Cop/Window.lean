/-
  HeatMeter.Cop.Window
  ────────────────────
  **A WINDOW OF POWER SAMPLES AND ITS COEFFICIENT OF PERFORMANCE.**

  The window is a queue of samples.  After every insertion the samples at the
  front that are older than the retention, counted back from the newest entry,
  are dropped.  The coefficient is thermal energy over electrical energy of the
  samples in order of time; it is given only if there are two samples at least,
  if electrical energy is positive, and if both energies and the ratio are
  within their bounds.
-/
import HeatMeter.Cop.Quality
import HeatMeter.Queue

namespace HeatMeter

/-- Samples of a limited time, with the settings that judge them. -/
structure Window (α : Type) where
  /-- The samples, in order of arrival. -/
  samples : Queue (Sample α)
  /-- The settings that judge them. -/
  settings : CopSettings α
  deriving DecidableEq, Repr

namespace Window

variable {α : Type} [Scalar α]

/-- An empty window for as many samples as the settings allow. -/
def ofSettings (s : CopSettings α) : Window α :=
  ⟨.bounded s.maxMeasurements, s⟩

/-- Drop what is older than the retention; nothing, where the retention reaches
back before the first instant there is. -/
def evict (w : Window α) : Window α :=
  match w.samples.back? with
  | none => w
  | some newest =>
    match newest.time.sub? w.settings.retention with
    | none => w
    | some cutoff =>
      { w with samples := w.samples.dropWhile fun m => decide (m.time < cutoff) }

/-- Insert one sample. -/
def add (w : Window α) (m : Sample α) : Window α :=
  evict { w with samples := w.samples.push m }

/-- Insert samples given in any order, in order of time. -/
def load (w : Window α) (ms : List (Sample α)) : Window α :=
  if ms.isEmpty then w
  else evict { w with samples := w.samples.pushAll (Sample.inOrder ms) }

/-- Thermal over electrical energy of samples in order of time, where both are
believable. -/
def ratio? (s : CopSettings α) (samples : List (Sample α)) : Option α :=
  let thermal := Sample.energy Sample.thermal samples
  let electrical := Sample.energy Sample.electrical samples
  if electrical ≤ 0 then none
  else if !Scalar.between s.minThermalEnergy s.maxThermalEnergy thermal
      || !Scalar.between s.minElectricalEnergy s.maxElectricalEnergy electrical then none
  else
    let cop := thermal / electrical
    if Scalar.between s.minCop s.maxCop cop then some cop else none

/-- The coefficient of performance of the window. -/
def cop? (w : Window α) : Option α :=
  if w.samples.size < 2 then none
  else ratio? w.settings (Sample.inOrder w.samples.toList)

/-- The quality of the window. -/
def quality (w : Window α) : Quality α :=
  w.settings.quality w.samples.toList

end Window

end HeatMeter
