import Reckon.Session.Request
import Reckon.Text.Blank

/-! A conversation at the prompt, one line at a time. An error is shown and the
conversation goes on. -/

namespace Reckon.CommandLine

structure Conversation where
  session : Session
  evaluator : Evaluator

namespace Conversation

def greeting : String := "Enter an expression, a :command or 'quit'\n"

def start (config : Config) (mode : AngleMode) (draws : List Float) :
    Except Failure Conversation := do
  let session ← Session.new config mode none draws
  return ⟨session, Evaluator.new config none (some mode)⟩

def modeName : AngleMode → String
  | .degrees => "DEG"
  | .radians => "RAD"

def prompt (conversation : Conversation) : String :=
  s!"[{modeName conversation.session.mode}] > "

/-- What a line without its outer blanks leads to. -/
inductive Answer where
  | finish
  | ignore
  | ask (request : Session.Request)

def interpret (line : String) : Answer :=
  if line == "quit" || line == "exit" then .finish
  else if line == "" then .ignore
  else if line.startsWith ":" then .ask (.command line)
  else .ask (.calculate (some line))

/-- The line that shows a reply. -/
def showReply : Reply → String
  | .nothing => ""
  | .number value => s!"= {grouped value}\n"
  | .text value => s!"{value}\n"

/-- The line that shows a failure, unless the failure ends the conversation. -/
def showFailure : Failure → Except Failure String
  | .evaluation cause _ => .ok s!"Error ({cause.kind.name}): {cause.message}\n"
  | .refused refusal => .ok s!"Error: {refusal.message}\n"
  | other => .error other

def showOutcome : Except Failure Reply → Except Failure String
  | .ok reply => .ok (showReply reply)
  | .error failure => showFailure failure

/-- What is shown for a request, and the state after it. -/
def ask (config : Config) (conversation : Conversation) (request : Session.Request) :
    Except Failure String × Conversation :=
  let outcome := conversation.session.perform config request conversation.evaluator
  (showOutcome outcome.reply, ⟨outcome.session, outcome.evaluator⟩)

/-- What becomes of a conversation by one line: it is over, by a failure if there is one, or
something is shown and it goes on. -/
inductive Turn where
  | over (failure? : Option Failure)
  | onward (shown : String) (after : Conversation)

def turn (config : Config) (conversation : Conversation) (line : String) : Turn :=
  match interpret (Text.strip line) with
  | .finish => .over none
  | .ignore => .onward "" conversation
  | .ask request =>
    match conversation.ask config request with
    | (.error failure, _) => .over (some failure)
    | (.ok shown, after) => .onward shown after

/-- All that is shown in a conversation over the given lines, and the failure that ended
it early, if one did. -/
def transcript (config : Config) (conversation : Conversation) :
    List String → String × Option Failure
  | [] => (conversation.prompt, none)
  | line :: rest =>
    match conversation.turn config line with
    | .over failure? => (conversation.prompt, failure?)
    | .onward shown after =>
      let (others, failure?) := after.transcript config rest
      (conversation.prompt ++ shown ++ others, failure?)

end Conversation

end Reckon.CommandLine
