/-! The functions that an expression can name. -/

namespace Reckon

inductive Function where
  | sin
  | cos
  | tan
  | asin
  | acos
  | atan
  | sqrt
  | log
  | ln
  | abs
  | exp
deriving DecidableEq, Repr

namespace Function

def name : Function → String
  | sin => "sin"
  | cos => "cos"
  | tan => "tan"
  | asin => "asin"
  | acos => "acos"
  | atan => "atan"
  | sqrt => "sqrt"
  | log => "log"
  | ln => "ln"
  | abs => "abs"
  | exp => "exp"

def all : List Function :=
  [sin, cos, tan, asin, acos, atan, sqrt, log, ln, abs, exp]

def named? (text : String) : Option Function :=
  all.find? fun function => function.name == text

/-- Takes or gives an angle. -/
def usesAngle : Function → Bool
  | sin | cos | tan | asin | acos | atan => true
  | _ => false

theorem named?_name (function : Function) : named? function.name = some function := by
  cases function <;> decide

theorem name_of_named? {text : String} {function : Function}
    (found : named? text = some function) : function.name = text := by
  have same := List.find?_some found
  exact eq_of_beq same

end Function

end Reckon
