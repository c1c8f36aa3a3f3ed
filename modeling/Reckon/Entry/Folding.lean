import Reckon.Entry.Substitution
import Reckon.Numeral
import Reckon.Numeral.Reading
import Reckon.Power

/-! Arithmetic on literals that is done in the text itself: a power of two literals is
replaced by its value, and so is a literal with a percent sign. -/

namespace Reckon.Entry

/-- The unsigned literal at the head of a text: digits, and a point only with digits
behind it. -/
def splitNumeral (text : List Char) : List Char × List Char :=
  match text.span Text.isDigit with
  | ([], _) => ([], text)
  | (whole, '.' :: after) =>
    match after.span Text.isDigit with
    | ([], _) => (whole, '.' :: after)
    | (fraction, rest) => (whole ++ '.' :: fraction, rest)
  | (whole, rest) => (whole, rest)

def numeralValue (numeral : List Char) : Float :=
  ((Reading.decimal? numeral).map Decimal.toFloat).getD 0.0

/-- A digit or a point on this side would belong to a literal too. -/
def touchesNumeral (beside : Option Char) : Bool :=
  beside.any fun char => Text.isDigit char || char == '.'

/-- A base behind another `^` is left alone, because powers are taken from the left. A
power that is no finite number keeps its text. -/
def powerPattern : Pattern := fun before text =>
  if before = some '^' ∨ touchesNumeral before then none
  else
    match splitNumeral text with
    | ([], _) => none
    | (base, '^' :: after) =>
      match splitNumeral after with
      | ([], _) => none
      | (exponent, rest) =>
        if touchesNumeral rest.head? then none
        else
          let value := power (numeralValue base) (numeralValue exponent)
          some ⟨base.length + exponent.length,
            if value.isFinite then literalText value else base ++ '^' :: exponent⟩
    | _ => none

def percentPattern : Pattern := fun before text =>
  if touchesNumeral before then none
  else
    match splitNumeral text with
    | ([], _) => none
    | (numeral, '%' :: _) => some ⟨numeral.length, literalText (numeralValue numeral / 100.0)⟩
    | _ => none

/-- Powers of literals are computed, from left to right. -/
def foldPowers (text : List Char) : List Char :=
  substitute powerPattern text

def foldPercents (text : List Char) : List Char :=
  substitute percentPattern text

end Reckon.Entry
