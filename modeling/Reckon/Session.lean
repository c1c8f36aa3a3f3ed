import Reckon.Evaluator
import Reckon.QuickFunction

/-! A session at the calculator: the expression on display, the last result, a memory,
a history and the unit of angles. The evaluator it works with may serve other sessions
too, so it is no part of the session. -/

namespace Reckon

structure Session where
  expression : String := "0"
  /-- The result of the last calculation, until something else is written. -/
  result : Option Float := none
  memory : Datum
  memorySet : Bool := false
  mode : AngleMode
  /-- Entries of the history, the latest at the end. -/
  history : List String := []
  /-- The most entries that the history keeps, if there is a bound. -/
  historySize : Option Nat
  /-- The random numbers still to come. -/
  draws : List Float := []

/-- What an operation gives back. -/
inductive Reply where
  | nothing
  | number (value : Float)
  | text (value : String)

/-- What happens in an operation: its answer or failure, and what it leaves behind. -/
structure Outcome where
  reply : Except Failure Reply
  session : Session
  evaluator : Evaluator

/-- What is said of an operation that succeeded. -/
def Outcome.saying (outcome : Outcome) (say : Reply → Session → String) : Outcome :=
  match outcome.reply with
  | .error _ => outcome
  | .ok reply => { outcome with reply := .ok (.text (say reply outcome.session)) }

namespace Session

/-- The greatest size that a history can be given. -/
def greatestHistory : Int := 9223372036854775807

/-- How many entries a history keeps; without a bound it keeps them all. -/
def historyBound (size : Datum) : Except Failure (Option Nat) :=
  match size with
  | .missing => .ok none
  | .real _ | .text _ => .error .wrongType
  | .flag value => .ok (some (if value then 1 else 0))
  | .integer value =>
    if value < -greatestHistory - 1 ∨ greatestHistory < value then .error .overflow
    else if value < 0 then .error (.refused .negativeHistory)
    else .ok (some value.toNat)

/-- The size that was asked for, or else the configured one. Zero and the like ask for
nothing. -/
def wantedHistory (config : Config) (historySize? : Option Datum) : Datum :=
  let asked := historySize?.getD .missing
  if asked.affirms then asked else config.historySize

def new (config : Config) (mode : AngleMode) (historySize? : Option Datum) (draws : List Float) :
    Except Failure Session := do
  let historySize ← historyBound (wantedHistory config historySize?)
  return { memory := config.memoryDefault, mode, historySize, draws }

/-- Adds an entry to the history, which keeps only the latest ones. -/
def record (session : Session) (entry : String) : Session :=
  let entries := session.history ++ [entry]
  match session.historySize with
  | none => { session with history := entries }
  | some size => { session with history := entries.drop (entries.length - size) }

/-- Puts a number on display. What is no finite number has no literal. -/
def write? (session : Session) (value : Float) : Except Failure Session :=
  if value.isFinite then .ok { session with expression := literal value, result := none }
  else .error (.evaluation (.unwritable value) (some session.expression))

/-- The last result, or else the value of the expression on display. -/
def currentValue (config : Config) (session : Session) (evaluator : Evaluator) :
    Except Failure Float × Evaluator :=
  match session.result with
  | some value => (.ok value, evaluator)
  | none => evaluator.evaluate config (some session.expression) (some session.mode)

/-- Nothing on display but a zero, or nothing at all. -/
def isIdle (session : Session) : Bool :=
  let text := Text.strip session.expression
  text == "" || text == "0"

/-- What is refused before the expression is evaluated. -/
def objection? (session : Session) : Option Cause :=
  if Entry.endsInOperator session.expression.toList then some .trailingOperator
  else if Entry.hasEmptyParentheses session.expression.toList then some .emptyParentheses
  else none

/-- Evaluates the expression on display and records the result. -/
def evaluateDisplay (config : Config) (session : Session) (evaluator : Evaluator) : Outcome :=
  if session.isIdle then ⟨.ok .nothing, session, evaluator⟩
  else
    match session.objection? with
    | some cause => ⟨.error (.evaluation cause (some session.expression)), session, evaluator⟩
    | none =>
      match evaluator.evaluate config (some session.expression) (some session.mode) with
      | (.error failure, after) => ⟨.error failure, session, after⟩
      | (.ok value, after) =>
        let entry := s!"{session.expression} = {grouped value}"
        ⟨.ok (.number value), { session with result := some value }.record entry, after⟩

/-- An expression that is given replaces the one on display, also when it then fails. -/
def calculate (config : Config) (text? : Option String) (session : Session)
    (evaluator : Evaluator) : Outcome :=
  evaluateDisplay config { session with expression := text?.getD session.expression } evaluator

/-- Puts a number on display and records how it came there. -/
def enter (session : Session) (evaluator : Evaluator) (value : Float) (entry : String) : Outcome :=
  match session.write? value with
  | .error failure => ⟨.error failure, session, evaluator⟩
  | .ok written => ⟨.ok (.number value), written.record entry, evaluator⟩

/-- Applies a quick function to the current value and puts the result on display. -/
def apply (config : Config) (name : String) (session : Session) (evaluator : Evaluator) : Outcome :=
  match session.currentValue config evaluator with
  | (.error failure, after) => ⟨.error failure, session, after⟩
  | (.ok value, after) =>
    match QuickFunction.applyNamed config session.mode name (.real value) with
    | .error failure => ⟨.error failure, session, after⟩
    | .ok result => session.enter after result s!"{name}({grouped value}) = {grouped result}"

def constant? (name : String) : Option Float :=
  if name == "pi" || name == "π" then some pi
  else if name == "e" then some euler
  else none

def insertConstant (name : String) (session : Session) (evaluator : Evaluator) : Outcome :=
  match constant? name with
  | none => ⟨.error (.refused (.unknownConstant name)), session, evaluator⟩
  | some value => session.enter evaluator value s!"{name} entered"

/-- The drawn number is used up even when it cannot be written. -/
def random (session : Session) (evaluator : Evaluator) : Outcome :=
  match session.draws with
  | [] => ⟨.error .noRandomNumber, session, evaluator⟩
  | value :: rest =>
    { session with draws := rest }.enter evaluator value s!"Random: {grouped value}"

/-- Turns the sign of the last result, or else that of the text on display. -/
def toggleSign (session : Session) (evaluator : Evaluator) : Outcome :=
  match session.result with
  | some value =>
    match session.write? (-value) with
    | .error failure => ⟨.error failure, session, evaluator⟩
    | .ok written => ⟨.ok (.text written.expression), written, evaluator⟩
  | none =>
    let text :=
      match session.expression.toList with
      | '-' :: rest => String.ofList rest
      | all => String.ofList ('-' :: all)
    ⟨.ok (.text text), { session with expression := text }, evaluator⟩

/-- Puts the memory on display, if anything was stored. -/
def memoryRecall (session : Session) (evaluator : Evaluator) : Outcome :=
  if !session.memorySet then ⟨.ok .nothing, session, evaluator⟩
  else
    match session.memory.toTerm with
    | .error failure => ⟨.error failure, session, evaluator⟩
    | .ok memory =>
      match session.write? memory with
      | .error failure => ⟨.error failure, session, evaluator⟩
      | .ok written => ⟨.ok (.number memory), written, evaluator⟩

/-- Adds a value to the memory. -/
def memorySum (memory : Datum) (value : Float) : Except Failure Float :=
  (· + value) <$> memory.toTerm

def memoryDifference (memory : Datum) (value : Float) : Except Failure Float :=
  (· - value) <$> memory.toTerm

/-- Stores what `combine` makes of the memory and the current value. -/
def memoryUpdate (config : Config) (combine : Datum → Float → Except Failure Float)
    (session : Session) (evaluator : Evaluator) : Outcome :=
  match session.currentValue config evaluator with
  | (.error failure, after) => ⟨.error failure, session, after⟩
  | (.ok value, after) =>
    match combine session.memory value with
    | .error failure => ⟨.error failure, session, after⟩
    | .ok memory =>
      ⟨.ok (.number memory), { session with memory := .real memory, memorySet := true }, after⟩

end Session

end Reckon
