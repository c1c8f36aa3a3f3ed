import Reckon.Expr

/-! Which rows of lexemes are sentences, and the tree that each of them means. A percent
sign binds tightest, then the power, the sign, product and quotient, sum and difference;
all of them group from the left. -/

namespace Reckon.Grammar

inductive Part where
  | atom
  | suffixed
  | operand
  | sentence
deriving DecidableEq

/-- The shape alone: operands joined by binary operators, where an operand is any number
of signs, an atom, and any number of percent signs. -/
inductive Derives : Part → List Lexeme → Prop
  | number (value : Float) : Derives .atom [.number value]
  | group {items : List Lexeme} (inside : Derives .sentence items) :
      Derives .atom (.opening :: items ++ [.closing])
  | call (f : Function) {items : List Lexeme} (inside : Derives .sentence items) :
      Derives .atom (.function f :: .opening :: items ++ [.closing])
  | bare {items : List Lexeme} (atom : Derives .atom items) : Derives .suffixed items
  | percent {items : List Lexeme} (inner : Derives .suffixed items) :
      Derives .suffixed (items ++ [.percent])
  | unsigned {items : List Lexeme} (inner : Derives .suffixed items) : Derives .operand items
  | negate {items : List Lexeme} (inner : Derives .operand items) :
      Derives .operand (.negate :: items)
  | single {items : List Lexeme} (operand : Derives .operand items) : Derives .sentence items
  | join (operator : BinaryOp) {items others : List Lexeme} (left : Derives .sentence items)
      (right : Derives .operand others) :
      Derives .sentence (items ++ .binary operator :: others)

def IsSentence (items : List Lexeme) : Prop :=
  Derives .sentence items

inductive Layer where
  | atom
  | suffixed
  | power
  | signed
  | product
  | sum
deriving DecidableEq

/-- The rows that have a reading on each layer, with the tree they mean. A sign takes the
whole chain of powers behind it, also where it stands behind a power itself. -/
inductive Reads : Layer → List Lexeme → Expr → Prop
  | number (value : Float) : Reads .atom [.number value] (.literal value)
  | group {items : List Lexeme} {tree : Expr} (inside : Reads .sum items tree) :
      Reads .atom (.opening :: items ++ [.closing]) tree
  | call (f : Function) {items : List Lexeme} {tree : Expr} (inside : Reads .sum items tree) :
      Reads .atom (.function f :: .opening :: items ++ [.closing]) (.function f tree)
  | bare {items : List Lexeme} {tree : Expr} (atom : Reads .atom items tree) :
      Reads .suffixed items tree
  | percent {items : List Lexeme} {tree : Expr} (inner : Reads .suffixed items tree) :
      Reads .suffixed (items ++ [.percent]) (.percent tree)
  | base {items : List Lexeme} {tree : Expr} (inner : Reads .suffixed items tree) :
      Reads .power items tree
  | power {items others : List Lexeme} {left right : Expr} (chain : Reads .power items left)
      (exponent : Reads .suffixed others right) :
      Reads .power (items ++ .binary .power :: others) (.binary .power left right)
  | unsigned {items : List Lexeme} {tree : Expr} (inner : Reads .power items tree) :
      Reads .signed items tree
  | negate {items : List Lexeme} {tree : Expr} (inner : Reads .signed items tree) :
      Reads .signed (.negate :: items) (.negate tree)
  | powerNegate {items others : List Lexeme} {left right : Expr}
      (chain : Reads .power items left) (exponent : Reads .signed others right) :
      Reads .signed (items ++ .binary .power :: .negate :: others)
        (.binary .power left (.negate right))
  | factor {items : List Lexeme} {tree : Expr} (inner : Reads .signed items tree) :
      Reads .product items tree
  | product (operator : BinaryOp) (level : operator.level = 2) {items others : List Lexeme}
      {left right : Expr} (first : Reads .product items left)
      (second : Reads .signed others right) :
      Reads .product (items ++ .binary operator :: others) (.binary operator left right)
  | term {items : List Lexeme} {tree : Expr} (inner : Reads .product items tree) :
      Reads .sum items tree
  | sum (operator : BinaryOp) (level : operator.level = 1) {items others : List Lexeme}
      {left right : Expr} (first : Reads .sum items left)
      (second : Reads .product others right) :
      Reads .sum (items ++ .binary operator :: others) (.binary operator left right)

end Reckon.Grammar
