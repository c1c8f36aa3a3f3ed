/-! Letters. Names are spelled with the letters of the English alphabet; the names of
the constants also guard against their look-alikes under case folding. -/

namespace Reckon.Text

/-- A letter of the English alphabet, of either case. -/
def isLetter (char : Char) : Bool :=
  char.isAlpha

def lower (letters : List Char) : String :=
  String.ofList (letters.map Char.toLower)

/-- The letters that equal a letter of the English alphabet once case is ignored: the
two dotted and dotless relatives of i, the long s and the kelvin sign join them. -/
def isFoldedLetter (char : Char) : Bool :=
  isLetter char || char.toNat == 0x130 || char.toNat == 0x131 || char.toNat == 0x17F ||
    char.toNat == 0x212A

/-- The Greek letter in its three spellings: small, capital, and the symbol variant. -/
def isGreekPi (char : Char) : Bool :=
  char.toNat == 0x3C0 || char.toNat == 0x3A0 || char.toNat == 0x3D6

/-- An i of either case, with or without its dot. -/
def isFoldedI (char : Char) : Bool :=
  char == 'i' || char == 'I' || char.toNat == 0x130 || char.toNat == 0x131

end Reckon.Text
