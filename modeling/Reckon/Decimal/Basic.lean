/-! Decimal fractions: some digits and the power of ten they count. -/

namespace Reckon

/-- Denotes `digits * 10 ^ exponent`. -/
structure Decimal where
  digits : Nat
  exponent : Int
deriving DecidableEq, Repr

/-- Ten to so many places. -/
def powerOfTen (places : Nat) : Nat :=
  Nat.pow 10 places

theorem powerOfTen_pos (places : Nat) : 0 < powerOfTen places :=
  Nat.pow_pos (by decide)

namespace Decimal

/-- The nearest double, a tie going to the even mantissa; beyond the largest double it
is the infinity. -/
def toFloat (decimal : Decimal) : Float :=
  if decimal.exponent < 0 then Float.ofScientific decimal.digits true (-decimal.exponent).toNat
  else Float.ofScientific decimal.digits false decimal.exponent.toNat

/-- The digits as they are written, without leading zeros. -/
def spelled (decimal : Decimal) : List Char :=
  Nat.toDigits 10 decimal.digits

/-- How many digits stand before the point; negative when zeros follow the point. -/
def pointPlace (decimal : Decimal) : Int :=
  decimal.spelled.length + decimal.exponent

/-- Keeps the exponent inside the range in which it can matter. Any number that is
not zero is beyond all doubles at the upper end and below all of them at the lower. -/
def bounded (decimal : Decimal) : Decimal :=
  let least : Int := -(decimal.spelled.length + 400 : Nat)
  ⟨decimal.digits, max least (min 400 decimal.exponent)⟩

end Decimal

end Reckon
