import Reckon.CommandLine.Program

/-! The program itself: it reads and prints what the run of the command line asks for. -/

namespace Reckon.CommandLine

/-- A number from the unit interval, with all the digits of a double. -/
def drawNumber : IO Float := do
  let steps : Nat := 1 <<< 53
  let taken ← IO.rand 0 (steps - 1)
  return Float.ofNat taken / Float.ofNat steps

def failed (_ : Failure) : IO UInt32 := do
  IO.eprintln "The run failed."
  return 1

def readText? (path : String) : IO (Option String) := do
  try
    return some (← IO.FS.readFile path)
  catch _ => return none

/-- Takes one turn for each line that comes in, with a fresh number drawn for it. -/
partial def converse (config : Config) (conversation : Conversation) : IO UInt32 := do
  let input ← IO.getStdin
  let output ← IO.getStdout
  output.putStr conversation.prompt
  output.flush
  let line ← input.getLine
  if line.isEmpty then return 0
  let number ← drawNumber
  match { conversation with session.draws := [number] }.turn config line with
  | .over none => return 0
  | .over (some failure) => failed failure
  | .onward shown after =>
    output.putStr shown
    converse config after

def startConversation (config : Config) (mode : AngleMode) : IO UInt32 := do
  IO.print Conversation.greeting
  match Conversation.start config mode [] with
  | .error failure => failed failure
  | .ok conversation => converse config conversation

/-- Prints and writes what a run leaves behind. -/
def finish (run : Run) : IO UInt32 := do
  IO.print run.output
  for (place, text) in run.files do
    IO.FS.writeFile (Files.pathOf place) text
  match run.exit with
  | .ok status => return status.toNat.toUInt32
  | .error failure => failed failure

/-- The part of the world that the paths of the settings lead to. -/
def worldOf (config : Config) (settings : Settings) (home : String) (text? : Option String) :
    World :=
  let source := Files.placeOf (ExpressionFile.sourcePath home (settings.dataPath.getD ""))
  let target := Files.placeOf (Files.fromHome home (Batch.outputPath config settings.outputPath))
  let item? (place : Files.Place) : Option Files.Item :=
    if place = [] then some .directory
    else if place = source then text?.map .file
    else if place = target then none
    else if place.isPrefixOf source || place.isPrefixOf target then some .directory
    else none
  { tree := item?, home }

/-- A conversation is carried on line by line; any other run is carried out at once. -/
def start (config : Config) (arguments : List String) : IO UInt32 := do
  let settings :=
    match parse arguments with
    | .accepted settings => settings
    | _ => {}
  if settings.interactive && config.check.toOption.isSome then
    startConversation config (settings.mode config)
  else
    let home := (← IO.getEnv "HOME").getD Files.root
    let text? ← readText? (ExpressionFile.sourcePath home (settings.dataPath.getD ""))
    finish (run config (worldOf config settings home text?) arguments)

end Reckon.CommandLine

def main (arguments : List String) : IO UInt32 :=
  Reckon.CommandLine.start {} arguments
