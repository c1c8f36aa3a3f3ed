import Reckon.Lexeme
import Reckon.Numeral.Reading
import Reckon.Text.Letter

/-! Cutting an expression into lexemes. The reader keeps what it has begun to read: a
sign, a numeral or a word. A sign merges with the numeral behind it and cancels with a
sign behind it. -/

namespace Reckon.Lexer

inductive Pending where
  | nothing
  | sign
  | numeral (negative : Bool) (digits : List Char)
  | word (letters : List Char)
deriving DecidableEq

def isNumeralChar (char : Char) : Bool :=
  char.isDigit || char == '.'

/-- A minus is a sign at the start and behind an operator or an opening parenthesis. -/
def opensOperand : Option Char → Bool
  | none => true
  | some before => (BinaryOp.ofSymbol? before).isSome || before == '('

def symbol? (char : Char) : Option Lexeme :=
  match char with
  | '(' => some .opening
  | ')' => some .closing
  | '%' => some .percent
  | _ => (BinaryOp.ofSymbol? char).map .binary

def numeral (negative : Bool) (digits : List Char) : Except Cause (List Lexeme) :=
  match Reading.decimal? digits with
  | some decimal => .ok [.number (if negative then -decimal.toFloat else decimal.toFloat)]
  | none =>
    .error (.malformedNumeral (String.ofList (if negative then '-' :: digits else digits)))

/-- A word is the name of a function and stands before its argument. -/
def word (letters : List Char) (next? : Option Char) : Except Cause (List Lexeme) :=
  let name := Text.lower letters
  match Function.named? name with
  | none => .error (.unknownFunction name)
  | some function =>
    if next? = some '(' then .ok [.function function] else .error (.missingArgument name)

/-- What was begun ends before `next?`, which stands at `position`. -/
def settle (pending : Pending) (next? : Option Char) (position : Nat) :
    Except Cause (List Lexeme) :=
  match pending with
  | .nothing => .ok []
  | .numeral negative digits => numeral negative digits
  | .word letters => word letters next?
  | .sign =>
    match next? with
    | none => .error .trailingMinus
    | some char =>
      if char = '(' ∨ Text.isLetter char then .ok [.negate] else .error (.danglingMinus position)

/-- What a character adds to what was begun, if it continues it. -/
def extend? (before : Option Char) (pending : Pending) (char : Char) : Option Pending :=
  match pending with
  | .nothing => if isNumeralChar char then some (.numeral false [char]) else none
  | .sign =>
    if isNumeralChar char then some (.numeral true [char])
    else if char = '-' ∧ opensOperand before then some .nothing
    else none
  | .numeral negative digits =>
    if isNumeralChar char then some (.numeral negative (digits ++ [char])) else none
  | .word letters => if Text.isLetter char then some (.word (letters ++ [char])) else none

/-- What a character stands for when nothing continues into it: a finished lexeme or the
beginning of the next one. -/
def start (before : Option Char) (char : Char) (position : Nat) :
    Except Cause (List Lexeme × Pending) :=
  if char = '-' ∧ opensOperand before then .ok ([], .sign)
  else if Text.isLetter char then .ok ([], .word [char])
  else
    match symbol? char with
    | some lexeme => .ok ([lexeme], .nothing)
    | none => .error (.unexpectedCharacter char position)

/-- The lexemes from here on, where `before` is the character to the left. -/
def lexFrom (before : Option Char) (position : Nat) (pending : Pending) :
    List Char → Except Cause (List Lexeme)
  | [] => settle pending none position
  | char :: rest =>
    match extend? before pending char with
    | some grown => lexFrom (some char) (position + 1) grown rest
    | none => do
      let settled ← settle pending (some char) position
      let (finished, begun) ← start before char position
      let others ← lexFrom (some char) (position + 1) begun rest
      return settled ++ finished ++ others

end Lexer

/-- The lexemes of a text. -/
def lex (text : List Char) : Except Cause (List Lexeme) :=
  Lexer.lexFrom none 0 .nothing text

end Reckon
