import Reckon.Operation
import Reckon.Text.Blank

/-! What can be said of an entered text before it is read: whether its parentheses
match, whether it breaks off behind an operator, whether it has empty parentheses. -/

namespace Reckon.Entry

/-- How many parentheses are open behind a text that begins with `depth` of them open;
nothing once one closes that was not open. -/
def openAfter : Nat → List Char → Option Nat
  | depth, [] => some depth
  | depth, '(' :: rest => openAfter (depth + 1) rest
  | 0, ')' :: _ => none
  | depth + 1, ')' :: rest => openAfter depth rest
  | depth, _ :: rest => openAfter depth rest

def isBalanced (text : List Char) : Bool :=
  openAfter 0 text == some 0

/-- An operator as it can be entered, the signs of a calculator's keys included. -/
def isOperatorKey (char : Char) : Bool :=
  (BinaryOp.ofSymbol? char).isSome || char == '×' || char == '÷'

def endsInOperator (text : List Char) : Bool :=
  (Text.trimEnd text).getLast?.any isOperatorKey

def hasEmptyParentheses (text : List Char) : Bool :=
  let visible := text.filter fun char => !Text.isBlank char
  (visible.zip visible.tail).contains ('(', ')')

theorem openAfter_append (depth : Nat) (first second : List Char) :
    openAfter depth (first ++ second) = (openAfter depth first).bind (openAfter · second) := by
  fun_induction openAfter depth first <;> simp_all [openAfter]

end Reckon.Entry
