import Reckon.Session

/-! Everything that can be asked of a session, and the commands by which a person asks. -/

namespace Reckon.Session

inductive MemoryRequest where
  | clear
  | recall
  | add
  | subtract
  | store
deriving DecidableEq, Repr

inductive Request where
  | setExpression (text : String)
  | calculate (text? : Option String)
  | currentValue
  | apply (name : String)
  | constant (name : String)
  | random
  | toggleSign
  | memory (request : MemoryRequest)
  | setMode (mode : AngleMode)
  | clear
  | command (line : String)

def performMemory (config : Config) (request : MemoryRequest) (session : Session)
    (evaluator : Evaluator) : Outcome :=
  match request with
  | .clear => ⟨.ok .nothing, { session with memory := .real 0.0, memorySet := false }, evaluator⟩
  | .recall => session.memoryRecall evaluator
  | .add => session.memoryUpdate config memorySum evaluator
  | .subtract => session.memoryUpdate config memoryDifference evaluator
  | .store => session.memoryUpdate config (fun _ value => .ok value) evaluator

/-- The commands that act on the memory. -/
def memoryCommands : List (String × MemoryRequest) :=
  [(":mc", .clear), (":mr", .recall), (":m+", .add), (":m-", .subtract), (":ms", .store)]

def sayNumber : Reply → Session → String
  | .number value, _ => grouped value
  | _, _ => "0"

/-- A memory without a number to show is empty, or was cleared just now. -/
def sayMemory (request : MemoryRequest) : Reply → Session → String
  | .number value, _ => s!"M: {grouped value}"
  | _, _ => if request = .recall then "Memory is empty" else s!"M: {grouped 0.0}"

def historyText (session : Session) : String :=
  let joined := "\n".intercalate session.history
  if joined == "" then "Ready to calculate" else joined

/-- Carries out a command line. Quick functions are commands under their own names. -/
def performCommand (config : Config) (line : String) (session : Session) (evaluator : Evaluator) :
    Outcome :=
  let name := String.ofList (line.toList.drop 1)
  if line == ":deg" then ⟨.ok (.text "DEG"), { session with mode := .degrees }, evaluator⟩
  else if line == ":rad" then ⟨.ok (.text "RAD"), { session with mode := .radians }, evaluator⟩
  else if line == ":history" then ⟨.ok (.text session.historyText), session, evaluator⟩
  else
    match memoryCommands.lookup line with
    | some request =>
      (performMemory config request session evaluator).saying (sayMemory request)
    | none =>
      if line == ":pi" || line == ":e" then
        (session.insertConstant name evaluator).saying sayNumber
      else if line == ":rand" then (session.random evaluator).saying sayNumber
      else if (QuickFunction.named? name).isSome then
        (session.apply config name evaluator).saying sayNumber
      else ⟨.error (.refused (.unknownCommand line)), session, evaluator⟩

def perform (config : Config) (request : Request) (session : Session) (evaluator : Evaluator) :
    Outcome :=
  match request with
  | .setExpression text => ⟨.ok .nothing, { session with expression := text }, evaluator⟩
  | .calculate text? => session.calculate config text? evaluator
  | .currentValue =>
    let (value, after) := session.currentValue config evaluator
    ⟨Reply.number <$> value, session, after⟩
  | .apply name => session.apply config name evaluator
  | .constant name => session.insertConstant name evaluator
  | .random => session.random evaluator
  | .toggleSign => session.toggleSign evaluator
  | .memory request => performMemory config request session evaluator
  | .setMode mode => ⟨.ok .nothing, { session with mode }, evaluator⟩
  | .clear => ⟨.ok .nothing, { session with expression := "0", result := none }, evaluator⟩
  | .command line => performCommand config line session evaluator

/-- The outcome of each request to one session, in the order in which they are made. -/
def run (config : Config) (session : Session) (evaluator : Evaluator) :
    List Request → List Outcome
  | [] => []
  | request :: rest =>
    let outcome := session.perform config request evaluator
    outcome :: outcome.session.run config outcome.evaluator rest

end Reckon.Session
