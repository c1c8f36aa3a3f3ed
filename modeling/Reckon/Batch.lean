import Reckon.Evaluator
import Reckon.ExpressionFile

/-! A batch of expressions and the table of its results. -/

namespace Reckon.Batch

/-- What labels have in common, if they have anything. -/
inductive Labels where
  | integers
  /-- Numbers, of which at least one is a double or missing. -/
  | doubles
  | texts
  | mixed
deriving DecidableEq, Repr

namespace Labels

/-- Integers that fit into a machine word, with or without a sign. -/
def fit (labels : List Int) : Bool :=
  labels.all (fun n => -9223372036854775808 ≤ n && n ≤ 9223372036854775807) ||
    labels.all fun n => 0 ≤ n && n ≤ 18446744073709551615

def isNothing : Datum → Bool
  | .missing => true
  | .real value => value.isNaN
  | _ => false

def integer? : Datum → Option Int
  | .integer value => some value
  | _ => none

def isNumber : Datum → Bool
  | .integer _ | .real _ | .missing => true
  | _ => false

def isText : Datum → Bool
  | .text _ => true
  | _ => false

def ofList (labels : List Datum) : Labels :=
  if labels.all isNumber && fit (labels.filterMap integer?) then
    if labels.all fun label => label == .missing then .mixed
    else if labels.all fun label => (integer? label).isSome then .integers
    else .doubles
  else if labels.all fun label => isText label || isNothing label then .texts
  else .mixed

/-- A label as it is shown among the others. Where only some of them are missing, these
are shown as NaN, and an integer among doubles is shown as one. -/
def shown (labels : Labels) (label : Datum) : Except Failure String :=
  match labels, label with
  | .doubles, .missing | .texts, .missing => .ok (exact (0.0 / 0.0))
  | .doubles, .integer value => .ok (exact (Float.ofInt value))
  | _, other => other.plain

end Labels

/-- The labels of the rows as they are shown, one among the others. -/
def shownLabels (rows : List Row) : Except Failure (List String) :=
  let labels := rows.map Row.label
  labels.mapM (Labels.ofList labels).shown

/-- The kinds of errors in the order of their names. -/
def kindsByName : List Kind :=
  [.divisionByZero, .domainError, .invalidExpression, .malformedExpression,
    .mismatchedParentheses]

/-- How often each kind of error occurs among the rows, the kinds that do not left out. -/
def failureCounts (rows : List Row) : List (Kind × Nat) :=
  (kindsByName.map fun kind => (kind, rows.countP fun row => row.error == some kind)).filter
    fun entry => entry.2 != 0

/-- The cells of a row. A value that is no number and an absent error leave theirs empty. -/
def rowCells (row : Row) : List String :=
  [row.expression, if row.value.isNaN then "" else exact row.value,
    (row.error.map Kind.name).getD ""]

def header (config : Config) : List String :=
  [config.expressionColumn, config.resultColumn, config.errorColumn]

/-- The table that keeps the results of a batch. -/
def resultTable (config : Config) (rows : List Row) : String :=
  Csv.write (header config :: rows.map rowCells)

/-- Where the results are kept: the path that was given, or else the configured one. -/
def outputPath (config : Config) (path? : Option String) : String :=
  let given := path?.getD ""
  if given == "" then config.outputPath else given

/-- The kind of the error, or else the display of the value. -/
def shown (row : Row) : String :=
  match row.error with
  | some kind => kind.name
  | none => grouped row.value

def rowLine (row : Row) : String :=
  s!"{row.expression} = {shown row}"

end Reckon.Batch
