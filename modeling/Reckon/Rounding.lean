import Reckon.Magnitude

/-! Rounding: the whole number below a double, and a result cut to so many places. -/

namespace Reckon

/-- The greatest whole number that is not above `x`. What has no fraction is kept as it
is, the negative zero and the infinities included. -/
def floor (x : Float) : Float :=
  let m := magnitude x
  let whole := m.numerator / m.denominator
  if !x.isFinite || m.numerator % m.denominator = 0 then x
  else if isNegative x then -Float.ofNat (whole + 1)
  else Float.ofNat whole

/-- The integer that a double is, if it is one. -/
def whole? (x : Float) : Option Int :=
  let m := magnitude x
  if !x.isFinite || m.numerator % m.denominator ≠ 0 then none
  else
    let size : Int := m.numerator / m.denominator
    some (if isNegative x then -size else size)

/-- Results keep eight places. -/
def resultScale : Float := 100000000.0

/-- Rounds to the nearest multiple of `1 / scale`, a half going up. A number too large
to be scaled has no places to lose. -/
def roundTo (scale x : Float) : Float :=
  if !x.isFinite then x
  else
    let scaled := x * scale
    if !scaled.isFinite then x else floor (scaled + 0.5) / scale

theorem roundTo_of_not_isFinite {scale x : Float} (special : x.isFinite = false) :
    roundTo scale x = x := by
  simp [roundTo, special]

end Reckon
