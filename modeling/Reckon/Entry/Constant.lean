import Reckon.Angle
import Reckon.Entry.Substitution
import Reckon.Numeral
import Reckon.Text.Letter

/-! The constants of the expression language. Each is replaced by its literal in
parentheses. A name written in letters has to stand alone, so that the names of
functions keep their letters. -/

namespace Reckon.Entry

/-- A literal that nothing beside it can run into. -/
def enclosed (x : Float) : List Char :=
  '(' :: literalText x ++ [')']

/-- No letter stands on this side of a name. -/
def standsFree (beside : Option Char) : Bool :=
  !beside.any Text.isFoldedLetter

def piPattern : Pattern
  | before, char :: rest =>
    if Text.isGreekPi char then some ⟨0, enclosed pi⟩
    else
      match rest with
      | second :: after =>
        if char.toLower = 'p' ∧ Text.isFoldedI second ∧ standsFree before ∧ standsFree after.head?
        then some ⟨1, enclosed pi⟩
        else none
      | [] => none
  | _, [] => none

def eulerPattern : Pattern
  | before, char :: after =>
    if char.toLower = 'e' ∧ standsFree before ∧ standsFree after.head?
    then some ⟨0, enclosed euler⟩
    else none
  | _, [] => none

def expandConstants (text : List Char) : List Char :=
  substitute eulerPattern (substitute piPattern text)

end Reckon.Entry
