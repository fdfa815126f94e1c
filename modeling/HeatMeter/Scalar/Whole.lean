/-
  HeatMeter.Scalar.Whole
  ──────────────────────
  **ROUNDING TO A WHOLE NUMBER, A HALF GOING AWAY FROM ZERO.**

  For a finite float the rounding is exact integer arithmetic on its sign,
  mantissa and exponent: `x = ±m · 2^e`.  With `e ≥ 0` the float is whole
  already; with `e = -k` the nearest whole number is `(m + 2^(k-1)) / 2^k`,
  where the added half makes ties go up in magnitude.  The result has at most
  53 bits, so converting it back is exact.  Infinities and NaN are kept.
-/
namespace HeatMeter.Whole

open Float.Model.UnpackedFloat (Sign)

/-- `m / 2^k` to the nearest whole number, a half going up. -/
def halfUp (m k : Nat) : Nat :=
  (2 * m + Nat.pow 2 k) / Nat.pow 2 (k + 1)

/-- `x` with the sign `s`. -/
def signed (s : Sign) (x : Float) : Float :=
  match s with
  | .positive => x
  | .negative => -x

/-- The whole number nearest to a float, a half going away from zero. -/
def ofFloat (x : Float) : Float :=
  match x.toModel.unpack with
  | .finite s m e _ =>
    match e with
    | .ofNat _ => x
    | .negSucc k => signed s (Float.ofNat (halfUp m (k + 1)))
  | _ => x

/-- The whole number nearest to a rational, a half going away from zero. -/
def ofRat (x : Rat) : Rat :=
  if 0 ≤ x then ((x + 1 / 2).floor : Rat) else -((-x + 1 / 2).floor : Rat)

end HeatMeter.Whole
