import Reckon.Error

/-! Comma-separated records. A field in quotes may hold commas, line breaks and, written
twice, quotes. -/

namespace Reckon.Csv

def isLineEnd (char : Char) : Bool :=
  char == '\n' || char == '\r'

/-- The blanks of a line that is passed over when it holds nothing else. -/
def isLineBlank (char : Char) : Bool :=
  char == ' ' || char == '\t'

/-- What was last seen on the way to the next record. -/
inductive Gap where
  | lineStart
  | blank
  /-- A return that ended a line without anything on it. -/
  | returned
deriving DecidableEq, Repr

/-- What the end of a line leaves to be seen. -/
def Gap.ofLineEnd (char : Char) : Gap :=
  if char = '\r' then .returned else .lineStart

/-- The text from the next record on. Lines that hold nothing but blanks are passed over,
and so is a comma right behind a return that ended such a line. A record that begins with
blanks is read from `mark`, where its line begins, and then with such a comma. -/
def nextRecord (mark : List Char) (gap : Gap) : List Char → List Char
  | [] => []
  | char :: rest =>
    if isLineEnd char then nextRecord rest (.ofLineEnd char) rest
    else if isLineBlank char then nextRecord mark .blank rest
    else if char = ',' ∧ gap = .returned then nextRecord mark .lineStart rest
    else if gap = .blank then mark
    else char :: rest

/-- Where the reader is inside a record. -/
inductive Place where
  | fieldStart
  | field
  | quoted
  /-- Behind a quote inside quotes, which ends them unless another quote follows. -/
  | quote
deriving DecidableEq, Repr

/-- What a character does, when `cell` is the text of the field so far. -/
inductive Step where
  | continue (place : Place) (cell : List Char)
  | endField
  | endRecord

/-- A character of a field that is not, or no longer, in quotes. -/
def plainStep (cell : List Char) (char : Char) : Step :=
  if isLineEnd char then .endRecord
  else if char == ',' then .endField
  else .continue .field (cell ++ [char])

/-- Quotes mean something only at the start of a field. -/
def step (place : Place) (cell : List Char) (char : Char) : Step :=
  match place with
  | .quoted => if char = '"' then .continue .quote cell else .continue .quoted (cell ++ [char])
  | .quote => if char = '"' then .continue .quoted (cell ++ [char]) else plainStep cell char
  | .field => plainStep cell char
  | .fieldStart => if char = '"' then .continue .quoted [] else plainStep cell char

/-- What is left behind the end of a line. A return takes a line feed behind it along. -/
def afterLineEnd (char : Char) (rest : List Char) : List Char :=
  if char = '\r' ∧ rest.head? = some '\n' then rest.tail else rest

/-- The fields of a record, where `row` holds those before `cell`, and what is left. -/
def readRecord (place : Place) (cell : List Char) (row : List String) :
    List Char → Except Failure (List String × List Char)
  | [] => if place = .quoted then .error .brokenTable else .ok (row ++ [String.ofList cell], [])
  | char :: rest =>
    match step place cell char with
    | .continue next grown => readRecord next grown row rest
    | .endField => readRecord .fieldStart [] (row ++ [String.ofList cell]) rest
    | .endRecord => .ok (row ++ [String.ofList cell], afterLineEnd char rest)

theorem length_nextRecord_le {mark text : List Char} {gap : Gap}
    (inside : text.length ≤ mark.length) : (nextRecord mark gap text).length ≤ mark.length := by
  fun_induction nextRecord mark gap text with
  | case1 => exact Nat.zero_le _
  | case2 _ _ _ _ _ ih => exact Nat.le_trans (ih (Nat.le_refl _)) (Nat.le_of_succ_le inside)
  | case3 _ _ _ _ _ _ ih | case4 _ _ _ _ _ _ _ ih => exact ih (Nat.le_of_succ_le inside)
  | case5 => exact Nat.le_refl _
  | case6 => exact inside

theorem length_afterLineEnd_le (char : Char) (rest : List Char) :
    (afterLineEnd char rest).length ≤ rest.length := by
  unfold afterLineEnd
  split
  · simp
  · exact Nat.le_refl _

theorem length_readRecord_le {place : Place} {cell : List Char} {row found : List String}
    {text left : List Char} (read : readRecord place cell row text = .ok (found, left)) :
    left.length ≤ text.length - 1 := by
  fun_induction readRecord place cell row text with
  | case1 => simp at read
  | case2 => simp_all
  | case3 _ _ _ _ rest _ _ _ ih | case4 _ _ _ _ rest _ ih =>
    have shorter := ih read
    simp only [List.length_cons]
    omega
  | case5 _ _ _ char rest =>
    have short := length_afterLineEnd_le char rest
    simp only [Except.ok.injEq, Prod.mk.injEq] at read
    simpa [← read.2] using short

/-- Reading one record uses up some of the text. -/
theorem length_lt_of_readRecord {text rest left : List Char} {char : Char} {row : List String}
    (start : nextRecord text .lineStart text = char :: rest)
    (read : readRecord .fieldStart [] [] (char :: rest) = .ok (row, left)) :
    left.length < text.length := by
  have inside := @length_nextRecord_le text text .lineStart (Nat.le_refl text.length)
  have shorter := length_readRecord_le read
  rw [start] at inside
  simp only [List.length_cons] at inside shorter
  omega

/-- The records of a text. -/
def recordsFrom (text : List Char) : Except Failure (List (List String)) :=
  match start : nextRecord text .lineStart text with
  | [] => .ok []
  | char :: rest =>
    match read : readRecord .fieldStart [] [] (char :: rest) with
    | .error failure => .error failure
    | .ok (row, left) =>
      have : left.length < text.length := length_lt_of_readRecord start read
      (row :: ·) <$> recordsFrom left
termination_by text.length

/-- The records of a text. A byte order mark at its start is no part of them. -/
def records (text : List Char) : Except Failure (List (List String)) :=
  match text with
  | char :: rest => recordsFrom (if char.toNat = 0xFEFF then rest else text)
  | [] => .ok []

/-- A field has to be quoted if it holds a comma, a quote or a line feed. -/
def needsQuotes (cell : List Char) : Bool :=
  cell.any fun char => char == ',' || char == '"' || char == '\n'

def writeCell (cell : List Char) : List Char :=
  if needsQuotes cell then
    '"' :: cell.flatMap (fun char => if char = '"' then ['"', '"'] else [char]) ++ ['"']
  else cell

/-- A record on a line of its own. -/
def writeRecord (cells : List String) : List Char :=
  [','].intercalate (cells.map fun cell => writeCell cell.toList) ++ ['\n']

def write (rows : List (List String)) : String :=
  String.ofList (rows.flatMap writeRecord)

end Reckon.Csv
