/-! The length of a hypotenuse, with the rounding error of the square root taken out. -/

namespace Reckon

namespace Hypotenuse

/-- Corrects the root once by the error of its square, computed from differences in
which nothing is lost. -/
def corrected (long short : Float) : Float :=
  let root := (long * long + short * short).sqrt
  let error :=
    if root ≤ 2.0 * short then
      let excess := root - short
      long * (2.0 * excess - long) + (excess - 2.0 * (long - short)) * excess
    else
      let excess := root - long
      2.0 * excess * (long - 2.0 * short) + ((4.0 * excess - short) * short + excess * excess)
  root - error / (2.0 * root)

/-- A leg this much shorter than the other does not show in the result. -/
def negligible : Float := 1.0 / 18014398509481984.0

end Hypotenuse

/-- The length of the hypotenuse over the legs `x` and `1`. -/
def unitHypotenuse (x : Float) : Float :=
  let leg := x.abs
  if !leg.isFinite then leg
  else
    let (long, short) := if leg < 1.0 then (1.0, leg) else (leg, 1.0)
    if short ≤ long * Hypotenuse.negligible then long + short
    else Hypotenuse.corrected long short

end Reckon
