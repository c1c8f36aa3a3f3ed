import Reckon.Angle
import Reckon.Datum.Order

/-! The settings of a calculator and what is asked of them before a program runs. A
setting that is meant to be a number may be of any type; what is no number fails where a
number is needed. -/

namespace Reckon

structure Config where
  /-- Places that a result keeps. -/
  roundDecimals : Datum := .integer 8
  /-- Results that an evaluator remembers. -/
  cacheSize : Datum := .integer 1000
  defaultMode : AngleMode := .degrees
  /-- The longest expression that is looked at. -/
  maxLength : Datum := .integer 1000
  /-- Entries that a session keeps in its history. -/
  historySize : Datum := .integer 3
  /-- What the memory holds before anything is stored. -/
  memoryDefault : Datum := .real 0.0
  factorialMin : Datum := .integer 0
  factorialMax : Datum := .integer 100
  expressionColumn : String := "expression"
  resultColumn : String := "result"
  errorColumn : String := "error"
  outputPath : String := "results.csv"

/-- Takes the answer to a comparison, which only numbers have. -/
def compared (answer? : Option Bool) : Except Failure Bool :=
  match answer? with
  | some answer => .ok answer
  | none => .error .wrongType

namespace Config

def demand (met : Bool) (fault : Fault) : Except Failure Unit :=
  if met then .ok () else .error (.misconfigured fault)

/-- The settings are checked one by one, and the first that is wrong is named. -/
def check (config : Config) : Except Failure Unit := do
  demand (config.roundDecimals.same (.integer 8)) .decimals
  demand (← compared ((Datum.integer 0).notAbove? config.cacheSize)) .cacheSize
  demand (← compared ((Datum.integer 0).below? config.maxLength)) .maxLength
  demand (← compared ((Datum.integer 0).below? config.historySize)) .historySize
  demand (← compared ((Datum.integer 0).notAbove? config.factorialMin)) .factorialRange
  demand (← compared (config.factorialMin.notAbove? config.factorialMax)) .factorialRange

theorem check_default : check {} = .ok () := rfl

end Config

end Reckon
