import Reckon.Entry.Substitution
import Reckon.Text.Digit
import Reckon.Text.Letter

/-! Two operands side by side are multiplied: the sign that was not entered is written
between them. Empty parentheses get a zero. -/

namespace Reckon.Entry

/-- A percent sign that an operand follows. -/
def percentGap (left right : Char) : List Char :=
  if left = '%' ∧ (Text.isDigit right ∨ right = '(' ∨ Text.isLetter right) then ['*'] else []

/-- The end of one operand against the start of another. Two digits belong together. -/
def productGap (left right : Char) : List Char :=
  if (Text.isDigit left ∧ right = '(') ∨ (left = ')' ∧ Text.isDigit right) ∨
      (left = ')' ∧ right = '(') ∨ ((Text.isDigit left ∨ left = ')') ∧ Text.isLetter right)
  then ['*'] else []

def emptyGap (left right : Char) : List Char :=
  if left = '(' ∧ right = ')' then ['0'] else []

end Reckon.Entry
