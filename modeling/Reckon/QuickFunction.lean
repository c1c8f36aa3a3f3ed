import Reckon.Config
import Reckon.Operation
import Reckon.QuickFunction.Hypotenuse

/-! The keys of a scientific calculator: functions of the current value. Their results
are rounded like those of expressions. -/

namespace Reckon

inductive QuickFunction where
  | function (function : Function)
  | square
  | cube
  | inverse
  | percent
  | factorial
  | floor
  | hypotenuse
  | negate
deriving DecidableEq, Repr

namespace QuickFunction

def name : QuickFunction → String
  | function f => f.name
  | square => "square"
  | cube => "cube"
  | inverse => "inverse"
  | percent => "percent"
  | factorial => "factorial"
  | floor => "floor"
  | hypotenuse => "hyp"
  | negate => "negate"

def all : List QuickFunction :=
  Function.all.map function ++
    [square, cube, inverse, percent, factorial, floor, hypotenuse, negate]

def named? (text : String) : Option QuickFunction :=
  all.find? fun quick => quick.name == text

def factorialOf : Nat → Nat
  | 0 => 1
  | n + 1 => (n + 1) * factorialOf n

/-- The greatest number whose factorial a double can hold. -/
def greatestFactorial : Int := 170

/-- Whether a number lies outside the configured range. -/
def outOfRange (config : Config) (n : Int) : Except Failure Bool := do
  if ← compared ((Datum.integer n).below? config.factorialMin) then return true
  compared (config.factorialMax.below? (.integer n))

/-- Integers in the configured range have a factorial; that of a negative one is zero. -/
def factorialValue (config : Config) (x : Float) : Except Failure Float :=
  match whole? x with
  | none => .error (.ofCause (.factorialOfFraction x))
  | some n => do
    if ← outOfRange config n then
      let least ← config.factorialMin.plain
      let greatest ← config.factorialMax.plain
      .error (.ofCause (.factorialOutOfRange least greatest))
    else if n < 0 then .ok 0.0
    else if greatestFactorial < n then .error .overflow
    else .ok (Float.ofNat (factorialOf n.toNat))

def value (config : Config) (mode : AngleMode) (x : Float) : QuickFunction → Except Failure Float
  | function f => liftCause (f.apply mode x)
  | square => .ok (x * x)
  | cube => .ok (x * x * x)
  | inverse => if x == 0.0 then .error (.ofCause .inverseOfZero) else .ok (1.0 / x)
  | percent => .ok (Reckon.percent x)
  | factorial => factorialValue config x
  | floor => .ok (Reckon.floor x)
  | hypotenuse =>
    if x ≤ 0.0 then .error (.ofCause (.hypotenuseOfNonPositive x)) else .ok (unitHypotenuse x)
  | negate => .ok (-x)

def apply (config : Config) (mode : AngleMode) (quick : QuickFunction) (x : Float) :
    Except Failure Float :=
  roundTo resultScale <$> quick.value config mode x

/-- The name is looked up before the operand is read. -/
def applyNamed (config : Config) (mode : AngleMode) (name : String) (operand : Datum) :
    Except Failure Float :=
  match named? name with
  | none => .error (.refused (.unknownQuickFunction name))
  | some quick => operand.toGivenNumber >>= quick.apply config mode

theorem named?_name (quick : QuickFunction) : named? quick.name = some quick := by
  cases quick with
  | function f => cases f <;> decide
  | _ => decide

theorem name_of_named? {text : String} {quick : QuickFunction} (found : named? text = some quick) :
    quick.name = text := by
  have same := List.find?_some found
  exact eq_of_beq same

end QuickFunction

end Reckon
