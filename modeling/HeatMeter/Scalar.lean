/-
  HeatMeter.Scalar
  ────────────────
  **THE NUMBER TYPE OF THE METER.**

  Every power and energy calculation of this library is written once, over a
  scalar type `α`.  The program runs at `α = Float`; the same definitions at
  `α = Rat` are the exact-arithmetic reading of the same formulas.  A theorem
  that holds for every scalar type cannot depend on how floats round, and so
  holds of the running program bit for bit.

  The class asks for arithmetic, decidable comparisons, decimal literals,
  conversion from whole numbers, and rounding to a whole number.  It asks for
  NO LAWS: a float is a scalar although it obeys few of them, and a statement
  that needs a law names it.
-/
import HeatMeter.Scalar.Whole

namespace HeatMeter

/-- A type of quantities (temperatures, powers, energies, durations in hours). -/
class Scalar (α : Type) extends
    Zero α, Add α, Sub α, Mul α, Div α, Neg α, LT α, LE α, OfScientific α where
  /-- The scalar nearest to a whole number. -/
  ofInt : Int → α
  /-- The nearest whole number, a half going away from zero. -/
  roundWhole : α → α
  /-- Comparisons are decidable, so that they can steer a calculation. -/
  decidableLT : DecidableLT α
  /-- Comparisons are decidable, so that they can steer a calculation. -/
  decidableLE : DecidableLE α

attribute [reducible, instance] Scalar.decidableLT Scalar.decidableLE

/-- Binary floating point: what the meter runs on. -/
instance : Scalar Float where
  zero := 0.0
  ofInt := Float.ofInt
  roundWhole := Whole.ofFloat
  decidableLT := fun _ _ => inferInstance
  decidableLE := fun _ _ => inferInstance

/-- Exact rationals: the same formulas without rounding error. -/
instance : Scalar Rat where
  zero := 0
  ofInt := fun n => (n : Rat)
  roundWhole := Whole.ofRat
  decidableLT := fun _ _ => inferInstance
  decidableLE := fun _ _ => inferInstance

namespace Scalar

variable {α : Type} [Scalar α]

/-- The part of `x` above zero; zero where `x` is not comparable with zero. -/
def positivePart (x : α) : α :=
  if 0 < x then x else 0

/-- `x` to two decimal places, a half going away from zero. -/
def round2 (x : α) : α :=
  roundWhole (x * ofInt 100) / ofInt 100

/-- Whether `low ≤ x ≤ high`. -/
def between (low high x : α) : Bool :=
  decide (low ≤ x) && decide (x ≤ high)

/-- The mean of a list of quantities, none when there are none. -/
def mean? (xs : List α) : Option α :=
  if xs.isEmpty then none
  else some (xs.foldl (· + ·) 0 / ofInt xs.length)

end Scalar

end HeatMeter
