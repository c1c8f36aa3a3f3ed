import Reckon.Config
import Reckon.Entry
import Reckon.Entry.Shape
import Reckon.Lexeme.Lexer

/-! The value of an entered text. It depends on the text, the unit of angles and the
settings, and on nothing else. -/

namespace Reckon

/-- The value of a text whose length and parentheses were checked, not yet rounded. -/
def compute (mode : AngleMode) (text : List Char) : Except Failure Float := do
  let lexemes ← liftCause (lex (Entry.normalize text))
  let ordered ← liftCause (Polish.reorder Lexeme.role lexemes)
  Machine.run (Lexeme.action mode) ordered

/-- Ten to a power. Only an infinite exponent may lead beyond the doubles. -/
def powerOfTenScale (exponent : Float) : Except Failure Float :=
  let scale := (10.0 : Float).pow exponent
  if scale.isInf && exponent.isFinite then .error .overflow else .ok scale

/-- Ten to so many places. The powers that a double holds exactly are taken exactly. -/
def decimalScale (places : Datum) : Except Failure Float :=
  match places with
  | .integer n =>
    if 0 ≤ n ∧ n ≤ 22 then .ok (Decimal.toFloat ⟨1, n⟩) else places.toTerm >>= powerOfTenScale
  | _ => places.toTerm >>= powerOfTenScale

/-- Nothing entered means zero. -/
def enteredText (text? : Option String) : String :=
  match text? with
  | none => "0"
  | some text => if Text.allBlank text then "0" else text

/-- The value of an entered text, rounded. Every failure names the text. -/
def evaluate (config : Config) (mode : AngleMode) (text? : Option String) :
    Except Failure Float :=
  let text := enteredText text?
  match config.maxLength.below? (.integer text.length) with
  | none => .error .wrongType
  | some true => do
    let limit ← config.maxLength.plain
    .error (.evaluation (.tooLong limit) (some text))
  | some false =>
    if !Entry.isBalanced text.toList then .error (.evaluation .unbalanced (some text))
    else do
      let value ← (compute mode text.toList).mapError (Failure.inExpression text)
      let scale ← decimalScale config.roundDecimals
      return roundTo scale value

end Reckon
