import Reckon.Evaluator

/-! Everything that can be asked of an evaluator, one task after another. -/

namespace Reckon.Evaluator

inductive Task where
  | evaluate (text? : Option String) (mode? : Option AngleMode)
  /-- Asks for NaN and a kind in the place of a failure. -/
  | attempt (text? : Option String) (mode? : Option AngleMode)
  | batch (values : Series) (mode? : Option AngleMode)
  | clear
  | resize (capacity : Datum)
deriving DecidableEq, Repr

inductive Answer where
  | nothing
  | number (value : Float)
  | attempted (value : Float) (error : Option Kind)
  | rows (rows : List Row)

def perform (config : Config) (evaluator : Evaluator) :
    Task → Except Failure Answer × Evaluator
  | .evaluate text? mode? =>
    let (outcome, after) := evaluator.evaluate config text? mode?
    (.number <$> outcome, after)
  | .attempt text? mode? =>
    let (outcome, after) := evaluator.tryEvaluate config text? mode?
    ((fun attempt => .attempted attempt.1 attempt.2) <$> outcome, after)
  | .batch values mode? =>
    let (outcome, after) := evaluator.evaluateMany config mode? values
    (.rows <$> outcome, after)
  | .clear => (.ok .nothing, evaluator.clear)
  | .resize capacity => (.ok .nothing, evaluator.resize capacity)

/-- The answer to each task, with the evaluator as the task leaves it. -/
def run (config : Config) (evaluator : Evaluator) :
    List Task → List (Except Failure Answer × Evaluator)
  | [] => []
  | task :: rest =>
    let (answer, after) := evaluator.perform config task
    (answer, after) :: after.run config rest

theorem length_run (config : Config) (evaluator : Evaluator) (tasks : List Task) :
    (evaluator.run config tasks).length = tasks.length := by
  induction tasks generalizing evaluator with
  | nil => rfl
  | cons task rest ih => simp [run, ih]

end Reckon.Evaluator
