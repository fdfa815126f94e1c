/-
  HeatMeter.Cop.Quality
  ─────────────────────
  **HOW FAR A COEFFICIENT OF PERFORMANCE CAN BE BELIEVED.**

  A window is graded by its number of samples and by the time between the oldest
  and the newest of them; a grade is reached only when both are large enough.
-/
import HeatMeter.Cop.Sample
import HeatMeter.Settings

namespace HeatMeter

/-- The grades of a window. -/
inductive Grade where
  /-- There are no samples. -/
  | noData
  /-- Too few samples or too short a time. -/
  | insufficient
  /-- Enough to show and not enough to rely on. -/
  | preliminary
  /-- Enough of both. -/
  | optimal
  deriving DecidableEq, Repr

/-- The name of a grade. -/
def Grade.name : Grade → String
  | .noData => "no_data"
  | .insufficient => "insufficient_data"
  | .preliminary => "preliminary"
  | .optimal => "optimal"

/-- A grade with the numbers that led to it. -/
structure Quality (α : Type) where
  /-- The grade. -/
  grade : Grade
  /-- The number of samples. -/
  count : Nat
  /-- Minutes from the oldest to the newest sample. -/
  spanMinutes : α
  deriving DecidableEq, Repr

/-- The earlier of two instants. -/
def Instant.earlier (a b : Instant) : Instant :=
  if b < a then b else a

/-- The later of two instants. -/
def Instant.later (a b : Instant) : Instant :=
  if a ≤ b then b else a

/-- The earliest and the latest of some instants. -/
def Instant.extremes? : List Instant → Option (Instant × Instant)
  | [] => none
  | t :: ts => some (ts.foldl Instant.earlier t, ts.foldl Instant.later t)

section

variable {α : Type} [Scalar α]

/-- The grade of `count` samples over `spanMinutes`. -/
def CopSettings.grade (s : CopSettings α) (count : Nat) (spanMinutes : α) : Grade :=
  if count = 0 then .noData
  else if count < s.insufficientCount ∨ spanMinutes < s.insufficientSpanMinutes then
    .insufficient
  else if count < s.preliminaryCount ∨ spanMinutes < s.preliminarySpanMinutes then
    .preliminary
  else .optimal

/-- Minutes from the earliest to the latest of some instants, zero for none. -/
def spanMinutes (times : List Instant) : α :=
  match Instant.extremes? times with
  | some (first, last) => minutesOfSpan (last.since first)
  | none => 0

/-- The quality of samples in any order. -/
def CopSettings.quality (s : CopSettings α) (samples : List (Sample α)) : Quality α :=
  let span := spanMinutes (samples.map Sample.time)
  ⟨s.grade samples.length span, samples.length, span⟩

end

end HeatMeter
