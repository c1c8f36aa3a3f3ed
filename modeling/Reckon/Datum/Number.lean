import Reckon.Datum
import Reckon.Numeral.Reading

/-! The number that a value means. Where a number is wanted, whatever can be read as one
is accepted. -/

namespace Reckon

namespace Datum

/-- An integer as a double, unless it is beyond them all. -/
def ofInteger (value : Int) : Except Failure Float :=
  let x := Float.ofInt value
  if x.isInf then .error .overflow else .ok x

/-- The number meant. What is missing is NaN. -/
def toNumber : Datum → Except Failure Float
  | real value => .ok value
  | integer value => ofInteger value
  | flag value => .ok (if value then 1.0 else 0.0)
  | missing => .ok (0.0 / 0.0)
  | text value =>
    match readNumber? value with
    | some x => .ok x
    | none => .error (.refused (.unreadableNumber value))

/-- The number itself. A text is none here, whatever it spells. -/
def toTerm : Datum → Except Failure Float
  | text _ | missing => .error .wrongType
  | number => number.toNumber

/-- The number meant, where something has to be given. -/
def toGivenNumber : Datum → Except Failure Float
  | missing => .error .wrongType
  | given => given.toNumber

/-- The display of a value. What cannot be read as a number is displayed as zero. -/
def display : Datum → Except Failure String
  | missing => .ok "0"
  | datum =>
    match datum.toNumber with
    | .ok x => .ok (grouped x)
    | .error (.refused _) => .ok "0"
    | .error failure => .error failure

end Datum

/-- An entry of the history: the expression and the display of its value. -/
def historyEntry (expression : String) (value : Datum) : Except Failure String :=
  (s!"{expression} = " ++ ·) <$> value.display

end Reckon
