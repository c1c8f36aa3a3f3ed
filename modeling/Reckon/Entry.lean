import Reckon.Entry.Constant
import Reckon.Entry.Folding
import Reckon.Entry.Juxtaposition
import Reckon.Text.Blank

/-! From the text a person enters to the text the lexer reads: one spelling for each
sign, no white space, no constants, no product left unwritten. -/

namespace Reckon.Entry

/-- The signs of a calculator's keys are those of a keyboard. -/
def plainSign (char : Char) : Char :=
  if char = '×' then '*' else if char = '÷' then '/' else char

/-- All that happens before the arithmetic on literals. A product behind a percent sign
has to be written out before the sign can disappear into a literal. -/
def prepare (text : List Char) : List Char :=
  fillGaps percentGap
    (expandConstants ((text.map plainSign).filter fun char => !Text.isBlank char))

/-- All that happens after powers of literals are computed. -/
def complete (text : List Char) : List Char :=
  fillGaps emptyGap (fillGaps productGap (foldPercents text))

def normalize (text : List Char) : List Char :=
  complete (foldPowers (prepare text))

end Reckon.Entry
