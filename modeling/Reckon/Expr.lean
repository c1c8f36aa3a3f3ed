import Reckon.Lexeme

/-! Expressions as trees. A tree has a value, an order in which its operations are
carried out, and a text in which every part is in parentheses. -/

namespace Reckon

inductive Expr where
  | literal (value : Float)
  | binary (operator : BinaryOp) (left right : Expr)
  | negate (operand : Expr)
  | percent (operand : Expr)
  | function (function : Function) (argument : Expr)

namespace Expr

/-- The value, or the cause for which the first operation that fails does so. Operands
come before their operation and the left one before the right one. -/
def value (mode : AngleMode) : Expr → Except Cause Float
  | literal x => .ok x
  | binary operator left right =>
    left.value mode >>= fun x => right.value mode >>= fun y => operator.apply x y
  | negate operand => operand.value mode >>= fun x => .ok (-x)
  | percent operand => operand.value mode >>= fun x => .ok (Reckon.percent x)
  | function f argument => argument.value mode >>= fun x => f.apply mode x

/-- Every operation behind its operands. -/
def postorder : Expr → List Lexeme
  | literal x => [.number x]
  | binary operator left right => left.postorder ++ right.postorder ++ [.binary operator]
  | negate operand => operand.postorder ++ [.negate]
  | percent operand => operand.postorder ++ [.percent]
  | function f argument => argument.postorder ++ [.function f]

/-- The text with parentheses around every part. -/
def print : Expr → List Char
  | literal x => '(' :: literalText x ++ [')']
  | binary operator left right => '(' :: left.print ++ operator.symbol :: right.print ++ [')']
  | negate operand => '(' :: '-' :: operand.print ++ [')']
  | percent operand => '(' :: operand.print ++ ['%', ')']
  | function f argument => '(' :: f.name.toList ++ argument.print ++ [')']

end Expr

theorem liftCause_bind {α β : Type} (outcome : Except Cause α) (next : α → Except Cause β) :
    liftCause (outcome >>= next) = liftCause outcome >>= fun x => liftCause (next x) := by
  cases outcome <;> rfl

/-- The machine carries out the operations of a tree and leaves its value on the stack. -/
theorem Machine.runFrom_postorder (mode : AngleMode) (tree : Expr) (stack : List Float)
    (rest : List Lexeme) :
    runFrom (Lexeme.action mode) stack (tree.postorder ++ rest) =
      liftCause (tree.value mode) >>= fun x => runFrom (Lexeme.action mode) (x :: stack) rest := by
  induction tree generalizing stack rest with
  | literal x => rfl
  | binary operator left right ihLeft ihRight =>
    simp [Expr.postorder, ihLeft, ihRight, Expr.value, liftCause_bind, runFrom_cons, step,
      Lexeme.action, bind_map_left]
  | negate operand ih | percent operand ih =>
    simp only [Expr.postorder, List.append_assoc, ih, Expr.value, liftCause_bind, bind_assoc]
    rfl
  | function f operand ih =>
    simp [Expr.postorder, ih, Expr.value, liftCause_bind, runFrom_cons, step, Lexeme.action,
      bind_map_left]

theorem Machine.run_postorder (mode : AngleMode) (tree : Expr) :
    run (Lexeme.action mode) tree.postorder = liftCause (tree.value mode) := by
  have steps := runFrom_postorder mode tree [] []
  simp only [List.append_nil] at steps
  rw [run, steps]
  cases tree.value mode <;> rfl

end Reckon
