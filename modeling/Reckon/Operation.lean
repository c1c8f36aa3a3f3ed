import Reckon.Angle
import Reckon.Datum.Number
import Reckon.Power

/-! The arithmetic of the calculator. Everything is computed in doubles; an operation
fails only outside its domain, and an overflow gives an infinity. -/

namespace Reckon

inductive BinaryOp where
  | add
  | subtract
  | multiply
  | divide
  | power
deriving DecidableEq, Repr

namespace BinaryOp

def symbol : BinaryOp → Char
  | add => '+'
  | subtract => '-'
  | multiply => '*'
  | divide => '/'
  | power => '^'

def all : List BinaryOp := [add, subtract, multiply, divide, power]

def ofSymbol? (char : Char) : Option BinaryOp :=
  all.find? fun operator => operator.symbol == char

def value (operator : BinaryOp) (left right : Float) : Float :=
  match operator with
  | add => left + right
  | subtract => left - right
  | multiply => left * right
  | divide => left / right
  | power => Reckon.power left right

/-- Nothing is divided by a zero of either sign. -/
def refuses (operator : BinaryOp) (right : Float) : Bool :=
  operator == divide && right == 0.0

def apply (operator : BinaryOp) (left right : Float) : Except Cause Float :=
  if operator.refuses right then .error .divisionByZero else .ok (operator.value left right)

/-- The divisor is looked at before the operands are read as numbers. -/
def applyGiven (operator : BinaryOp) (left right : Datum) : Except Failure Float :=
  if right.nearest?.any operator.refuses then .error (.ofCause .divisionByZero)
  else do
    let x ← left.toNumber
    let y ← right.toNumber
    return operator.value x y

theorem applyGiven_real (operator : BinaryOp) (left right : Float) :
    operator.applyGiven (.real left) (.real right) = liftCause (operator.apply left right) := by
  unfold apply applyGiven
  by_cases refused : operator.refuses right = true
  · rw [if_pos refused, if_pos (by exact refused)]
    rfl
  · rw [if_neg refused, if_neg (by exact refused)]
    rfl

theorem ofSymbol?_symbol (operator : BinaryOp) : ofSymbol? operator.symbol = some operator := by
  cases operator <;> decide

theorem symbol_of_ofSymbol? {char : Char} {operator : BinaryOp}
    (found : ofSymbol? char = some operator) : operator.symbol = char := by
  have same := List.find?_some found
  exact eq_of_beq same

end BinaryOp

/-- A hundredth. -/
def percent (x : Float) : Float :=
  x / 100.0

namespace Function

/-- The operands that a function refuses. NaN is never refused. -/
def refuses (function : Function) (x : Float) : Bool :=
  match function with
  | asin | acos => x < -1.0 || 1.0 < x
  | sqrt => x < 0.0
  | log | ln => x ≤ 0.0
  | _ => false

def value (function : Function) (mode : AngleMode) (x : Float) : Float :=
  match function with
  | sin => (mode.toRadians x).sin
  | cos => (mode.toRadians x).cos
  | tan => (mode.toRadians x).tan
  | asin => mode.ofRadians x.asin
  | acos => mode.ofRadians x.acos
  | atan => mode.ofRadians x.atan
  | sqrt => x.sqrt
  | log => x.log10
  | ln => x.log
  | abs => x.abs
  | exp => x.exp

def apply (function : Function) (mode : AngleMode) (x : Float) : Except Cause Float :=
  if function.refuses x then .error (.outsideDomain function (exact x))
  else .ok (function.value mode x)

/-- Refuses some operands, so that it has to compare each with the ends of its domain. -/
def isPartial (function : Function) : Bool :=
  match function with
  | asin | acos | sqrt | log | ln => true
  | _ => false

/-- The operand is compared before it is read as a number. -/
def applyGiven (function : Function) (mode : AngleMode) (operand : Datum) :
    Except Failure Float :=
  if function.isPartial && operand.nearest?.isNone then .error .wrongType
  else if operand.nearest?.any function.refuses then do
    let shown ← operand.plain
    .error (.ofCause (.outsideDomain function shown))
  else function.value mode <$> operand.toNumber

theorem applyGiven_real (function : Function) (mode : AngleMode) (x : Float) :
    function.applyGiven mode (.real x) = liftCause (function.apply mode x) := by
  have compared : (function.isPartial && (Datum.real x).nearest?.isNone) = false := Bool.and_false _
  unfold apply applyGiven
  rw [compared, if_neg Bool.false_ne_true]
  by_cases refused : function.refuses x = true
  · rw [if_pos refused, if_pos (by exact refused)]
    rfl
  · rw [if_neg refused, if_neg (by exact refused)]
    rfl

theorem apply_eq_ok_iff {function : Function} {mode : AngleMode} {x y : Float} :
    function.apply mode x = .ok y ↔ function.refuses x = false ∧ function.value mode x = y := by
  unfold apply
  split <;> simp_all

end Function

/-- Everything that can be computed from one or two numbers, whether an expression can
spell it or not. -/
inductive Operation where
  | binary (operator : BinaryOp)
  | negate
  | percent
  | floor
  /-- Takes an angle in the chosen unit to radians. -/
  | radians
  | function (function : Function)
deriving DecidableEq, Repr

namespace Operation

/-- The name by which an operator table refers to the operation. -/
def name : Operation → String
  | binary .add => "add"
  | binary .subtract => "sub"
  | binary .multiply => "mul"
  | binary .divide => "div"
  | binary .power => "pow"
  | negate => "neg"
  | percent => "percent"
  | floor => "floor"
  | radians => "_to_radians"
  | function .log => "log10"
  | function f => f.name

def all : List Operation :=
  BinaryOp.all.map binary ++ [negate, percent, floor, radians] ++ Function.all.map function

def named? (text : String) : Option Operation :=
  all.find? fun operation => operation.name == text

/-- Which unit an operation takes its angle in, where a call says nothing else. -/
def defaultMode : AngleMode := .degrees

/-- The unit that a second operand chooses. -/
def chosenMode (operand : Datum) : AngleMode :=
  if operand.affirms then .degrees else .radians

/-- Applies an operation to the operands it is given. Only where angles are concerned can
their unit be chosen, by `mode?`, or by a second operand that affirms degrees. -/
def call (operation : Operation) (mode? : Option AngleMode) (operands : List Datum) :
    Except Failure Float :=
  match operation, mode?, operands with
  | binary operator, none, [left, right] => operator.applyGiven left right
  | negate, none, [x] => (- ·) <$> x.toNumber
  | percent, none, [x] => Reckon.percent <$> x.toNumber
  | floor, none, [x] => Reckon.floor <$> x.toNumber
  | function f, mode?, [x] =>
    if mode?.isSome && !f.usesAngle then .error .wrongType
    else f.applyGiven (mode?.getD defaultMode) x
  | function f, none, [x, flag] =>
    if f.usesAngle then f.applyGiven (chosenMode flag) x else .error .wrongType
  | radians, some mode, [x] => mode.toRadians <$> x.toNumber
  | radians, none, [x, flag] => (chosenMode flag).toRadians <$> x.toNumber
  | _, _, _ => .error .wrongType

theorem named?_name (operation : Operation) : named? operation.name = some operation := by
  match operation with
  | binary operator => cases operator <;> decide
  | negate | percent | floor | radians => decide
  | function f => cases f <;> decide

end Operation

end Reckon
