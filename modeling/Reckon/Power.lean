/-! Powers of doubles. Some exponents have an operation of their own, which is exact up
to its last digit and says what becomes of a negative zero and of a negative infinity. -/

namespace Reckon

def power (base exponent : Float) : Float :=
  if exponent == 0.0 then 1.0
  else if exponent == 1.0 then base
  else if exponent == 2.0 then base * base
  else if exponent == 0.5 then base.sqrt
  else if exponent == -1.0 then 1.0 / base
  else base.pow exponent

theorem power_zero (base : Float) : power base 0.0 = 1.0 := by
  rw [power, if_pos (by decide)]

theorem power_one (base : Float) : power base 1.0 = base := by
  rw [power, if_neg (by decide), if_pos (by decide)]

theorem power_two (base : Float) : power base 2.0 = base * base := by
  rw [power, if_neg (by decide), if_neg (by decide), if_pos (by decide)]

theorem power_half (base : Float) : power base 0.5 = base.sqrt := by
  rw [power, if_neg (by decide), if_neg (by decide), if_neg (by decide), if_pos (by decide)]

end Reckon
