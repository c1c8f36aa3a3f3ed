import Reckon.Session.Request

/-! Sessions side by side. They work with one evaluator for all of them or with one
each; nothing else is common to them. -/

namespace Reckon.Session

inductive Desk where
  | shared (sessions : List Session) (evaluator : Evaluator)
  | separate (seats : List (Session × Evaluator))

namespace Desk

/-- So many new sessions, which are all alike. -/
def new (config : Config) (session : Session) (count : Nat) (shared? : Option Evaluator) : Desk :=
  match shared? with
  | some evaluator => shared (List.replicate count session) evaluator
  | none =>
    separate (List.replicate count (session, Evaluator.new config none (some session.mode)))

/-- Asks something of the session at a place, if there is one. -/
def perform (config : Config) (place : Nat) (request : Request) : Desk → Option (Outcome × Desk)
  | shared sessions evaluator => do
    let session ← sessions[place]?
    let outcome := session.perform config request evaluator
    return (outcome, shared (sessions.set place outcome.session) outcome.evaluator)
  | separate seats => do
    let (session, evaluator) ← seats[place]?
    let outcome := session.perform config request evaluator
    return (outcome, separate (seats.set place (outcome.session, outcome.evaluator)))

/-- The outcome of each request, in the order in which they are made. -/
def run (config : Config) (desk : Desk) : List (Nat × Request) → List (Option Outcome)
  | [] => []
  | (place, request) :: rest =>
    match desk.perform config place request with
    | some (outcome, after) => some outcome :: after.run config rest
    | none => none :: desk.run config rest

/-- The only session at a desk is alone with its evaluator. -/
theorem run_single (config : Config) (session : Session) (evaluator : Evaluator)
    (requests : List Request) :
    (separate [(session, evaluator)]).run config (requests.map fun request => (0, request)) =
      (session.run config evaluator requests).map some := by
  induction requests generalizing session evaluator with
  | nil => rfl
  | cons request rest ih =>
    rw [List.map_cons, Session.run, List.map_cons, ← ih]
    rfl

end Desk

end Reckon.Session
