import Reckon.Evaluation
import Reckon.Evaluator.Recency
import Reckon.Series

/-! An evaluator that remembers results. What it answers is what the evaluation alone
would answer; only its counters show whether a result was remembered. -/

namespace Reckon

/-- An expression under one unit of angles. No expression and the empty one are the same. -/
abbrev Query := String × AngleMode

structure Evaluator where
  /-- How many results may be kept. Nothing is kept unless it is above zero. -/
  capacity : Datum
  mode : AngleMode
  remembered : List (Query × Float) := []
  hits : Nat := 0
  misses : Nat := 0

/-- One line of a batch, under the label that was given. -/
structure Row where
  label : Datum
  expression : String
  value : Float
  error : Option Kind
deriving DecidableEq, Repr

namespace Evaluator

def new (config : Config) (capacity? : Option Datum) (mode? : Option AngleMode) : Evaluator :=
  { capacity := capacity?.getD config.cacheSize, mode := mode?.getD config.defaultMode }

def query (evaluator : Evaluator) (text? : Option String) (mode? : Option AngleMode) : Query :=
  (text?.getD "", mode?.getD evaluator.mode)

/-- Keeps a result. Entries are given up only here, also after the capacity was lowered. -/
def remember (evaluator : Evaluator) (query : Query) (value : Float) :
    Except Failure Evaluator :=
  match (Datum.integer 0).below? evaluator.capacity with
  | none => .error .wrongType
  | some false => .ok evaluator
  | some true =>
    let entries := Recency.put query value evaluator.remembered
    let size := evaluator.capacity.admitted entries.length
    .ok { evaluator with remembered := Recency.trim size entries }

/-- Answers from memory if it can, and remembers what it had to work out. A failure is
not remembered. -/
def evaluate (config : Config) (evaluator : Evaluator) (text? : Option String)
    (mode? : Option AngleMode) : Except Failure Float × Evaluator :=
  let query := evaluator.query text? mode?
  match evaluator.remembered.lookup query with
  | some value =>
    (.ok value, { evaluator with
      remembered := Recency.put query value evaluator.remembered
      hits := evaluator.hits + 1 })
  | none =>
    let missed := { evaluator with misses := evaluator.misses + 1 }
    match Reckon.evaluate config query.2 text? with
    | .error failure => (.error failure, missed)
    | .ok value =>
      match missed.remember query value with
      | .error failure => (.error failure, missed)
      | .ok after => (.ok value, after)

/-- The value, or NaN and the kind of the error. -/
def tryEvaluate (config : Config) (evaluator : Evaluator) (text? : Option String)
    (mode? : Option AngleMode) : Except Failure (Float × Option Kind) × Evaluator :=
  match evaluator.evaluate config text? mode? with
  | (.ok value, after) => (.ok (value, none), after)
  | (.error (.evaluation cause _), after) => (.ok (0.0 / 0.0, some cause.kind), after)
  | (.error failure, after) => (.error failure, after)

/-- A row for each labelled expression, in their order. -/
def evaluateLines (config : Config) (evaluator : Evaluator) (mode? : Option AngleMode) :
    List (Datum × String) → Except Failure (List Row) × Evaluator
  | [] => (.ok [], evaluator)
  | (label, text) :: rest =>
    match evaluator.tryEvaluate config (some text) mode? with
    | (.ok (value, error), after) =>
      let (rows, last) := after.evaluateLines config mode? rest
      ((⟨label, text, value, error⟩ :: ·) <$> rows, last)
    | (.error failure, after) => (.error failure, after)

/-- All values are written before the first of them is evaluated. -/
def evaluateMany (config : Config) (evaluator : Evaluator) (mode? : Option AngleMode)
    (batch : Series) : Except Failure (List Row) × Evaluator :=
  match batch.lines with
  | .error failure => (.error failure, evaluator)
  | .ok lines => evaluator.evaluateLines config mode? lines

def clear (evaluator : Evaluator) : Evaluator :=
  { evaluator with remembered := [], hits := 0, misses := 0 }

/-- Sets the capacity and keeps what is remembered. -/
def resize (evaluator : Evaluator) (capacity : Datum) : Evaluator :=
  { evaluator with capacity }

end Evaluator

end Reckon
