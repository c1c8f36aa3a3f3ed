import Reckon.Config
import Reckon.Files
import Reckon.Series
import Reckon.Table.Columns
import Reckon.Table.Csv
import Reckon.Text.Blank

/-! Files of expressions. A table holds them in a column, any other file one on each
line; blank ones are left out. -/

namespace Reckon.ExpressionFile

def isTable (path : String) : Bool :=
  path.endsWith ".csv"

/-- Where a file is looked for. Only the path of a table may begin at the home directory. -/
def sourcePath (home path : String) : String :=
  if isTable path then Files.fromHome home path else path

/-- The column that is read: the one that was asked for, or else the configured one. -/
def columnName (config : Config) (column? : Option String) : String :=
  let asked := column?.getD ""
  if asked == "" then config.expressionColumn else asked

/-- The lines of a text, where `line` is what was read of the first one. A line ends with
a line feed, a return, or both. -/
def linesFrom (line : List Char) : List Char → List (List Char)
  | [] => if line.isEmpty then [] else [line]
  | '\r' :: '\n' :: rest => line :: linesFrom [] rest
  | char :: rest =>
    if char = '\n' ∨ char = '\r' then line :: linesFrom [] rest
    else linesFrom (line ++ [char]) rest

def lines (text : String) : List String :=
  (linesFrom [] text.toList).map String.ofList

/-- The expressions of a file, numbered in their order. Those of a table keep their blanks. -/
def load (config : Config) (path : String) (column? : Option String) (text : String) :
    Except Failure Series := do
  let entries ←
    if isTable path then
      Csv.records text.toList >>= Columns.column (columnName config column?)
    else .ok ((lines text).map Text.strip)
  return .numbered ((entries.filter fun entry => !Text.allBlank entry).map .text)

end Reckon.ExpressionFile
