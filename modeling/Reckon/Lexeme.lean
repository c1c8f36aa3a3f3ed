import Reckon.Machine
import Reckon.Operation
import Reckon.Polish

/-! The lexemes of the expression language: numbers, parentheses, operators and the
names of functions. Each has a spelling, a role in the order of operations and an action
on the stack machine. -/

namespace Reckon

/-- The tighter an operator binds, the higher its level. -/
def BinaryOp.level : BinaryOp → Rat
  | add | subtract => 1
  | multiply | divide => 2
  | power => 3

/-- A sign binds tighter than a product and looser than a power. -/
def signLevel : Rat := { num := 5, den := 2 }

inductive Lexeme where
  | number (value : Float)
  | opening
  | closing
  | binary (operator : BinaryOp)
  | negate
  | percent
  | function (function : Function)

namespace Lexeme

/-- Everything but the numbers. -/
def vocabulary : List Lexeme :=
  [opening, closing] ++ BinaryOp.all.map binary ++ [negate, percent] ++ Function.all.map function

def name : Lexeme → String
  | number _ => "number"
  | opening => "("
  | closing => ")"
  | binary operator => String.singleton operator.symbol
  | negate => "neg"
  | percent => "%"
  | function f => f.name

def named? (text : String) : Option Lexeme :=
  vocabulary.find? fun lexeme => lexeme.name == text

/-- How a lexeme is written in an expression. -/
def spelling : Lexeme → List Char
  | number value => literalText value
  | negate => ['-']
  | other => other.name.toList

def role : Lexeme → Polish.Role
  | number _ | percent => .operand
  | opening => .opening
  | closing => .closing
  | binary operator => .binary operator.level
  | negate => .leading signLevel
  | function _ => .function

def action (mode : AngleMode) : Lexeme → Machine.Action
  | number value => .push (.ok value)
  | opening => .refuse (.ofCause (.unexpectedToken "("))
  | closing => .refuse (.ofCause (.unexpectedToken ")"))
  | binary operator =>
    .binary (String.singleton operator.symbol) fun left right =>
      liftCause (operator.apply left right)
  | negate => .unary "neg" fun x => .ok (-x)
  | percent => .unary "%" fun x => .ok (Reckon.percent x)
  | function f => .unary f.name fun x => liftCause (f.apply mode x)

end Lexeme

end Reckon
