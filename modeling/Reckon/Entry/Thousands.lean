import Reckon.Entry.Substitution
import Reckon.Text.Digit

/-! Thousands. A comma is written inside a number wherever full groups of three digits follow up
to the end of its digits. -/

namespace Reckon.Entry

/-- One full group of three digits or more, and no digit behind the last of them. -/
def threesAhead : List Char → Bool
  | first :: second :: third :: rest =>
    [first, second, third].all Text.isDigit && (threesAhead rest || !rest.head?.any Text.isDigit)
  | _ => false

/-- The place itself is empty: the digit behind it is given back. -/
def thousandsPattern : Pattern := fun before text =>
  match text with
  | [] => none
  | digit :: _ =>
    if before.any Text.isDigit && threesAhead text then some ⟨0, [',', digit]⟩ else none

end Reckon.Entry
