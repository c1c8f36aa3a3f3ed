import Reckon.Datum

/-! The order of numbers of different types. An integer and a double are compared by
their exact values. -/

namespace Reckon

/-- The exact size of a number. -/
inductive Size where
  /-- What NaN has: no comparison with it holds. -/
  | undefined
  | finite (value : Rat)
  | infinite (negative : Bool)
deriving DecidableEq

namespace Size

def ofFloat (x : Float) : Size :=
  if x.isNaN then undefined
  else if x.isInf then infinite (isNegative x)
  else
    let size := mkRat (magnitude x).numerator (magnitude x).denominator
    finite (if isNegative x then -size else size)

def below : Size → Size → Bool
  | undefined, _ | _, undefined => false
  | _, infinite true => false
  | infinite true, _ => true
  | infinite false, _ => false
  | _, infinite false => true
  | finite first, finite second => first < second

theorem not_below_self (size : Size) : size.below size = false := by
  cases size with
  | undefined => rfl
  | finite value => exact decide_eq_false Rat.lt_irrefl
  | infinite negative => cases negative <;> rfl

end Size

namespace Datum

def size? : Datum → Option Size
  | real value => some (.ofFloat value)
  | integer value => some (.finite value)
  | flag value => some (.finite (if value then 1 else 0))
  | text _ | missing => none

/-- Whether one value is less than another. Nothing is said unless both are numbers. -/
def below? : Datum → Datum → Option Bool
  | integer first, integer second => some (first < second)
  | first, second =>
    match first.size?, second.size? with
    | some smaller, some greater => some (smaller.below greater)
    | _, _ => none

/-- Whether one value is equal to another or less. -/
def notAbove? (first second : Datum) : Option Bool :=
  match first.below? second with
  | some less => some (less || first.same second)
  | none => none

theorem below?_integer (first second : Int) :
    (integer first).below? (integer second) = some (decide (first < second)) := rfl

/-- The greatest number up to `count` that is not above the value. -/
def admitted (limit : Datum) (count : Nat) : Nat :=
  match limit with
  | integer value => min count value.toNat
  | flag value => min count (if value then 1 else 0)
  | real value =>
    if value.isInf then (if isNegative value then 0 else count)
    else if isNegative value || value.isNaN then 0
    else min count ((magnitude value).numerator / (magnitude value).denominator)
  | text _ | missing => 0

theorem admitted_le (limit : Datum) (count : Nat) : limit.admitted count ≤ count := by
  cases limit with
  | integer | flag => exact Nat.min_le_left ..
  | text | missing => exact Nat.zero_le count
  | real value =>
    simp only [admitted]
    split
    · split <;> omega
    · split
      · exact Nat.zero_le count
      · exact Nat.min_le_left ..

end Datum

end Reckon
