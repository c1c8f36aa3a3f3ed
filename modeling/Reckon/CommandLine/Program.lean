import Reckon.Batch
import Reckon.CommandLine.Arguments
import Reckon.CommandLine.Conversation
import Reckon.Files

/-! The program as a function of its arguments and of what it can read: a single
expression, a batch, or a conversation. -/

namespace Reckon.CommandLine

/-- All that a run can read. -/
structure World where
  tree : Files.Tree
  home : String := Files.root
  input : List String := []
  draws : List Float := []

/-- All that a run leaves behind. -/
structure Run where
  exit : Except Failure Int
  output : String := ""
  files : List (Files.Place × String) := []

def usage : String :=
  "usage: [-h] [--radians] [--data_path DATA_PATH] [--expression_column EXPRESSION_COLUMN] " ++
    "[--save_results] [--output_path OUTPUT_PATH] [--interactive] [--verbose] [expression]\n"

/-- The exit status for arguments that ask for nothing, or for what there is not. -/
def usageStatus : Int := 2

def evaluationStatus : Int := 1

def runSingle (config : Config) (mode : AngleMode) (expression : String) : Run :=
  match ((Evaluator.new config none (some mode)).evaluate config (some expression) none).1 with
  | .ok value => { exit := .ok 0, output := s!"{grouped value}\n" }
  | .error (.evaluation ..) => { exit := .ok evaluationStatus }
  | .error failure => { exit := .error failure }

def batchRows (config : Config) (mode : AngleMode) (settings : Settings) (path text : String) :
    Except Failure (List Row) := do
  let expressions ← ExpressionFile.load config path settings.expressionColumn text
  ((Evaluator.new config none (some mode)).evaluateMany config none expressions).1

/-- Keeps the results in a table, or prints them line by line. -/
def finishBatch (config : Config) (world : World) (settings : Settings) (rows : List Row) : Run :=
  if settings.saveResults then
    let path := Files.fromHome world.home (Batch.outputPath config settings.outputPath)
    match Files.target world.tree path with
    | .ok place => { exit := .ok 0, files := [(place, Batch.resultTable config rows)] }
    | .error failure => { exit := .error failure }
  else { exit := .ok 0, output := String.join (rows.map fun row => Batch.rowLine row ++ "\n") }

/-- The report at the end of a batch, in which the capacity of its evaluator is written. -/
def report (config : Config) (run : Run) : Run :=
  { run with exit := run.exit >>= fun status => (fun _ => status) <$> config.cacheSize.described }

def runBatch (config : Config) (world : World) (mode : AngleMode) (settings : Settings)
    (path : String) : Run :=
  let source := ExpressionFile.sourcePath world.home path
  match Files.read world.tree source >>= batchRows config mode settings path with
  | .error failure => { exit := .error failure }
  | .ok rows => report config (finishBatch config world settings rows)

def runInteractive (config : Config) (world : World) (mode : AngleMode) : Run :=
  match Conversation.start config mode world.draws with
  | .error failure => { exit := .error failure }
  | .ok conversation =>
    let (shown, failure?) := conversation.transcript config world.input
    { exit := (failure?.elim (.ok 0) .error), output := Conversation.greeting ++ shown }

/-- The unit of angles. The switch can only turn to radians. -/
def Settings.mode (config : Config) (settings : Settings) : AngleMode :=
  if settings.radians then .radians else config.defaultMode

def runSettings (config : Config) (world : World) (settings : Settings) : Run :=
  let mode := settings.mode config
  let path := settings.dataPath.getD ""
  if settings.interactive then runInteractive config world mode
  else if path != "" then runBatch config world mode settings path
  else
    match settings.expression with
    | some expression => runSingle config mode expression
    | none => { exit := .ok usageStatus }

/-- The settings of the calculator are checked only once the arguments were understood. -/
def run (config : Config) (world : World) (arguments : List String) : Run :=
  match parse arguments with
  | .rejected => { exit := .ok usageStatus }
  | .help => { exit := .ok 0, output := usage }
  | .accepted settings =>
    match config.check with
    | .error failure => { exit := .error failure }
    | .ok _ => runSettings config world settings

end Reckon.CommandLine
