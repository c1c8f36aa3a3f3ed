import Reckon.Error

/-! A machine that computes with a stack of numbers. It runs items in reverse Polish
order and stops at the first action that fails. -/

namespace Reckon.Machine

inductive Action where
  | push (value : Except Failure Float)
  | unary (name : String) (compute : Float → Except Failure Float)
  | binary (name : String) (compute : Float → Float → Except Failure Float)
  | refuse (failure : Failure)

/-- The top of the stack comes first, so the right operand does. -/
def step : List Float → Action → Except Failure (List Float)
  | stack, .push value => (· :: stack) <$> value
  | operand :: stack, .unary _ compute => (· :: stack) <$> compute operand
  | [], .unary name _ => .error (.ofCause (.missingOperands name))
  | right :: left :: stack, .binary _ compute => (· :: stack) <$> compute left right
  | _, .binary name _ => .error (.ofCause (.missingOperands name))
  | _, .refuse failure => .error failure

variable {α : Type} (action : α → Action)

def runFrom (stack : List Float) (items : List α) : Except Failure (List Float) :=
  items.foldlM (fun stack item => step stack (action item)) stack

/-- The only number left is the value. -/
def result : List Float → Except Failure Float
  | [value] => .ok value
  | stack => .error (.ofCause (.surplusValues stack.length))

def run (items : List α) : Except Failure Float :=
  runFrom action [] items >>= result

theorem runFrom_cons (stack : List Float) (item : α) (items : List α) :
    runFrom action stack (item :: items) =
      step stack (action item) >>= fun next => runFrom action next items := by
  simp [runFrom]

theorem runFrom_append (stack : List Float) (first second : List α) :
    runFrom action stack (first ++ second) =
      runFrom action stack first >>= fun middle => runFrom action middle second := by
  simp [runFrom]

end Reckon.Machine
