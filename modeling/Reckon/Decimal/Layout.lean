import Reckon.Decimal.Basic

/-! The two ways to lay out the digits of a decimal: with a point in its place, or with
one digit before the point and an exponent. -/

namespace Reckon.Decimal

/-- The fraction, or nothing when there is none to write. -/
def fraction : List Char → List Char
  | [] => []
  | digits => '.' :: digits

/-- Every digit in its place, filled up with zeros where none is known. No point stands
without a digit after it. -/
def positional (decimal : Decimal) : List Char :=
  let digits := decimal.spelled
  if 0 ≤ decimal.exponent then digits ++ List.replicate decimal.exponent.toNat '0'
  else if 0 < decimal.pointPlace then
    digits.take decimal.pointPlace.toNat ++ fraction (digits.drop decimal.pointPlace.toNat)
  else '0' :: fraction (List.replicate (-decimal.pointPlace).toNat '0' ++ digits)

/-- The exponent after its letter: a sign, then at least two digits. -/
def exponentMark (exponent : Int) : List Char :=
  let digits := Nat.toDigits 10 exponent.natAbs
  'e' :: (if exponent < 0 then '-' else '+') ::
    (List.replicate (2 - digits.length) '0' ++ digits)

def scientific (decimal : Decimal) : List Char :=
  decimal.spelled.take 1 ++ fraction (decimal.spelled.drop 1) ++
    exponentMark (decimal.pointPlace - 1)

end Reckon.Decimal
