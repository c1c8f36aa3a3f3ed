import Reckon.Decimal.Layout
import Reckon.Decimal.Shortest
import Reckon.Entry.Thousands

/-! How a number is written: as a literal of the expression language, in full for
tables and messages, and grouped by thousands for display. -/

namespace Reckon

/-- What is not a finite number has a name. -/
def specialName? (x : Float) : Option (List Char) :=
  if x.isNaN then some ['n', 'a', 'n']
  else if x.isInf then some (if x < 0.0 then ['-', 'i', 'n', 'f'] else ['i', 'n', 'f'])
  else none

def signMark (x : Float) : List Char :=
  if isNegative x then ['-'] else []

/-- The shortest digits of a finite number without its sign. -/
def absolute (x : Float) : Decimal :=
  if x == 0.0 then ⟨0, 0⟩ else shortest x.abs

/-- A number as the expression language spells it: the shortest digits, never an
exponent, no fraction unless there is one. -/
def literalText (x : Float) : List Char :=
  (specialName? x).getD (signMark x ++ (absolute x).positional)

def literal (x : Float) : String :=
  String.ofList (literalText x)

/-- The exponents for which a number is written in full with its point in place. -/
def isModerate (exponent : Int) : Bool :=
  -4 ≤ exponent && exponent < 16

/-- The shortest digits, always with a fraction while the point stays in place, and with
an exponent beyond that. -/
def exactText (x : Float) : List Char :=
  let decimal := absolute x
  let digits :=
    if decimal.digits = 0 || isModerate (decimal.pointPlace - 1) then
      if 0 ≤ decimal.exponent then decimal.positional ++ ['.', '0'] else decimal.positional
    else decimal.scientific
  (specialName? x).getD (signMark x ++ digits)

def exact (x : Float) : String :=
  String.ofList (exactText x)

namespace Grouped

def group (digits : List Char) : List Char :=
  Entry.substitute Entry.thousandsPattern digits

/-- Groups the digits before the point. -/
def groupInteger (text : List Char) : List Char :=
  group (text.takeWhile (· != '.')) ++ text.dropWhile (· != '.')

end Grouped

/-- The display of a number: its literal with the integer part grouped by thousands.
What is no number is displayed as zero. -/
def grouped (x : Float) : String :=
  if x.isNaN then "0"
  else if x.isInf then (if x < 0.0 then "-∞" else "∞")
  else String.ofList (signMark x ++ Grouped.groupInteger (absolute x).positional)

end Reckon
