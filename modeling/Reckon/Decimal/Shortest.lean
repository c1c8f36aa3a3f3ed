import Reckon.Decimal.Basic
import Reckon.Magnitude

/-! The shortest decimal that reads back to a double. Grids of one, two, three and more
digits are tried in turn; on each only the two neighbours of the exact value can read
back, and of these the nearer wins. -/

namespace Reckon.Shortest

/-- The place `p` with `10 ^ (p - 1) ≤ numerator / denominator < 10 ^ p`. The digit
counts leave only two candidates. -/
def leadingPlace (numerator denominator : Nat) : Int :=
  let guess : Int :=
    (Nat.toDigits 10 numerator).length - (Nat.toDigits 10 denominator).length
  if denominator * powerOfTen guess.toNat ≤ numerator * powerOfTen (-guess).toNat then guess + 1
  else guess

/-- The two neighbours of the exact value on the grid of so many digits, the nearer one
first; of two equally near ones, the one with an even last digit. -/
def neighbours (m : Magnitude) (count : Nat) : List Decimal :=
  let step : Int := leadingPlace m.numerator m.denominator - count
  let numerator := m.numerator * powerOfTen (-step).toNat
  let denominator := m.denominator * powerOfTen step.toNat
  let low := numerator / denominator
  let below : Decimal := ⟨low, step⟩
  let above : Decimal := if low + 1 = powerOfTen count then ⟨1, step + count⟩ else ⟨low + 1, step⟩
  let twice := 2 * (numerator % denominator)
  if twice < denominator ∨ (twice = denominator ∧ low % 2 = 0) then [below, above]
  else [above, below]

/-- The neighbour on one grid that reads back to `x`. -/
def onGrid? (x : Float) (count : Nat) : Option Decimal :=
  (neighbours (magnitude x) count).find? fun decimal => decimal.toFloat == x

/-- Seventeen digits always suffice. -/
def digitLimit : Nat := 17

end Shortest

/-- The shortest decimal that reads back to the positive double `x`, and among those
the nearest to it. -/
def shortest (x : Float) : Decimal :=
  match (List.range' 1 Shortest.digitLimit).findSome? (Shortest.onGrid? x) with
  | some decimal => decimal
  | none => ((Shortest.neighbours (magnitude x) Shortest.digitLimit).head?).getD ⟨0, 0⟩

theorem Shortest.toFloat_of_onGrid? {x : Float} {count : Nat} {decimal : Decimal}
    (found : onGrid? x count = some decimal) : (decimal.toFloat == x) = true := by
  unfold onGrid? at found
  have readsBack := List.find?_some found
  exact readsBack

end Reckon
