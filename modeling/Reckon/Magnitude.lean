/-! The exact value of a double, read off its bits: a whole number times a power of
two. All digits that are written come from here. -/

namespace Reckon

/-- Denotes `mantissa * 2 ^ exponent`. -/
structure Magnitude where
  mantissa : Nat
  exponent : Int
deriving DecidableEq, Repr

/-- The sign bit, set for the negative zero too. -/
def isNegative (x : Float) : Bool :=
  x.toBits.toNat >>> 63 == 1

/-- The distance of a finite double from zero. -/
def magnitude (x : Float) : Magnitude :=
  let bits := x.toBits.toNat
  let implicitBit := 1 <<< 52
  let fraction := bits % implicitBit
  match (bits >>> 52) % (1 <<< 11) with
  | 0 => ⟨fraction, -1074⟩
  | field + 1 => ⟨implicitBit + fraction, (field : Int) - 1074⟩

/-- The same value as a quotient of two whole numbers. -/
def Magnitude.numerator (m : Magnitude) : Nat :=
  m.mantissa <<< m.exponent.toNat

def Magnitude.denominator (m : Magnitude) : Nat :=
  1 <<< (-m.exponent).toNat

theorem Magnitude.denominator_pos (m : Magnitude) : 0 < m.denominator := by
  rw [denominator, Nat.shiftLeft_eq, Nat.one_mul]
  exact Nat.pow_pos (by decide)

end Reckon
