import Reckon.Decimal.Basic
import Reckon.Text.Blank
import Reckon.Text.Digit

/-! Reading a number that stands alone in a text: a sign, digits of any script with
single underscores between them, a point, an exponent, or the name of a special value. -/

namespace Reckon.Reading

/-- The blanks allowed around a number; the information separators are not. -/
def isPadding (char : Char) : Bool :=
  Text.isBlank char && !(28 ≤ char.toNat && char.toNat ≤ 31)

def unpad (text : List Char) : List Char :=
  ((text.dropWhile isPadding).reverse.dropWhile isPadding).reverse

/-- Drops the underscores, each of which has to stand between two digits. -/
def joinDigits? : Option Char → List Char → Option (List Char)
  | _, [] => some []
  | before, '_' :: rest =>
    if before.any Text.isDigit && rest.head?.any Text.isDigit then joinDigits? (some '_') rest
    else none
  | _, char :: rest => (char :: ·) <$> joinDigits? (some char) rest

def splitSign : List Char → Bool × List Char
  | '-' :: rest => (true, rest)
  | '+' :: rest => (false, rest)
  | rest => (false, rest)

def splitDigits (text : List Char) : List Char × List Char :=
  text.span Text.isDigit

/-- The power of ten after the digits, and zero when none is written. -/
def exponent? : List Char → Option Int
  | [] => some 0
  | letter :: rest =>
    if letter != 'e' && letter != 'E' then none
    else
      let (negative, digits) := splitSign rest
      if digits.isEmpty || !digits.all Text.isDigit then none
      else
        let size : Int := Text.digitsValue digits
        some (if negative then -size else size)

/-- The digits around the point; one of them at least has to be there. -/
def decimal? (text : List Char) : Option Decimal :=
  let (whole, rest) := splitDigits text
  let (fraction, tail) :=
    match rest with
    | '.' :: after => splitDigits after
    | _ => ([], rest)
  if whole.isEmpty && fraction.isEmpty then none
  else (exponent? tail).map fun exponent =>
    ⟨Text.digitsValue (whole ++ fraction), exponent - fraction.length⟩

def special? (text : List Char) : Option Float :=
  let name := String.ofList (text.map Char.toLower)
  if name == "inf" || name == "infinity" then some (1.0 / 0.0)
  else if name == "nan" then some (0.0 / 0.0)
  else none

def unsigned? (text : List Char) : Option Float :=
  match special? text with
  | some x => some x
  | none => (joinDigits? none text).bind fun joined =>
    (decimal? joined).map fun decimal => decimal.bounded.toFloat

end Reading

/-- The number that a text denotes, if it denotes one. -/
def readNumber? (text : String) : Option Float :=
  let (negative, body) := Reading.splitSign (Reading.unpad text.toList)
  (Reading.unsigned? body).map fun x => if negative then -x else x

end Reckon
