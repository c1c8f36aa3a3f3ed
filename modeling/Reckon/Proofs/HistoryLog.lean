import Mathlib.Data.List.DropRight
import Reckon.Proofs.SessionEffects

/-! The history of a session as the end of a log. The log has an entry for each calculation that
came to a number and for each number that was put on display with a record, and it has no entry
for anything else; the history is what its bound leaves of it. -/

namespace Reckon.Proofs.HistoryLog
open Session SessionEffects

def commanded? (line : String) : Option Request :=
  let name := String.ofList (line.toList.drop 1)
  if line == ":deg" then some (.setMode .degrees)
  else if line == ":rad" then some (.setMode .radians)
  else if line == ":history" then none
  else
    match memoryCommands.lookup line with
    | some request => some (.memory request)
    | none =>
      if line == ":pi" || line == ":e" then some (.constant name)
      else if line == ":rand" then some .random
      else if (QuickFunction.named? name).isSome then some (.apply name)
      else none

def operation? : Request → Option Request
  | .command line => commanded? line
  | request => some request

/-- The entry for an operation that was replied to: numbers are written as on the display, and a
quick function names the value that was current before it. -/
def noted? (config : Config) (session : Session) (evaluator : Evaluator) (operation : Request)
    (reply : Except Failure Reply) : Option String :=
  match operation, reply with
  | .calculate text?, .ok (.number value) =>
    some s!"{text?.getD session.expression} = {grouped value}"
  | .apply name, .ok (.number result) =>
    match (session.currentValue config evaluator).1 with
    | .ok value => some s!"{name}({grouped value}) = {grouped result}"
    | .error _ => none
  | .constant name, .ok (.number _) => some s!"{name} entered"
  | .random, .ok (.number value) => some s!"Random: {grouped value}"
  | _, _ => none

def logged? (config : Config) (session : Session) (evaluator : Evaluator) (request : Request) :
    Option String :=
  (operation? request).bind fun operation =>
    noted? config session evaluator operation (session.perform config operation evaluator).reply

def log (config : Config) (session : Session) (evaluator : Evaluator) : List Request → List String
  | [] => []
  | request :: rest =>
    let outcome := session.perform config request evaluator
    (logged? config session evaluator request).toList ++
      log config outcome.session outcome.evaluator rest

/-- The history is the one that an entry leaves, or the one from before if there is none. -/
structure Records (entry : Option String) (session after : Session) : Prop where
  history : after.history = (entry.elim session session.record).history
  bound : after.historySize = session.historySize

variable {config : Config} {session after : Session} {evaluator : Evaluator} {request : Request}
  {operation : Request} {outcome : Outcome} {size : Nat} {entries : List String}

theorem Records.still (history : after.history = session.history)
    (bound : after.historySize = session.historySize) : Records none session after :=
  ⟨history, bound⟩

/-- Only the history and its bound decide what an entry leaves of the history. -/
theorem Records.record (still : Records none session after) (entry : String) :
    Records (some entry) session (after.record entry) := by
  obtain ⟨history, bound⟩ := still
  constructor
  · show (after.record entry).history = (session.record entry).history
    rw [Session.record, Session.record, bound, history]
    cases session.historySize <;> rfl
  · rw [Session.record]
    split
    · exact bound
    · exact bound

private theorem noted?_error (operation : Request) (failure : Failure) :
    noted? config session evaluator operation (.error failure) = none := by
  cases operation <;> rfl

def Kept (config : Config) (session : Session) (evaluator : Evaluator) (operation : Request)
    (outcome : Outcome) : Prop :=
  Records (noted? config session evaluator operation outcome.reply) session outcome.session

theorem Kept.failed (still : Records none session after) (failure : Failure) (later : Evaluator) :
    Kept config session evaluator operation ⟨.error failure, after, later⟩ := by
  unfold Kept
  rw [noted?_error]
  exact still

/-- A number is put on display and recorded, or it is refused and nothing is. -/
theorem kept_enter (still : Records none session after) (later : Evaluator) {value : Float}
    {entry : String}
    (told : noted? config session evaluator operation (.ok (.number value)) = some entry) :
    Kept config session evaluator operation (after.enter later value entry) := by
  unfold enter
  rcases write?_cases after value with refused | written
  · rw [refused]
    exact .failed still _ later
  · have displayed : Records none session
        { after with expression := literal value, result := none } := .still still.history still.bound
    rw [written, Kept, told]
    exact displayed.record entry

private theorem kept_calculate (text? : Option String) :
    Kept config session evaluator (.calculate text?) (session.calculate config text? evaluator) := by
  have still (expression : String) : Records none session { session with expression } := .still rfl rfl
  unfold calculate evaluateDisplay
  split
  · exact still _
  split
  · exact .failed (still _) _ evaluator
  split
  · exact .failed (still _) _ _
  · rename_i value later _
    have calculated : Records none session
        { session with expression := text?.getD session.expression, result := some value } :=
      .still rfl rfl
    exact calculated.record _

private theorem kept_apply (name : String) :
    Kept config session evaluator (.apply name) (session.apply config name evaluator) := by
  have still : Records none session session := .still rfl rfl
  unfold Session.apply
  split
  · exact .failed still _ _
  · rename_i value later current
    split
    · exact .failed still _ later
    · refine kept_enter still later ?_
      simp only [noted?, current]

private theorem kept_constant (name : String) :
    Kept config session evaluator (.constant name) (session.insertConstant name evaluator) := by
  have still : Records none session session := .still rfl rfl
  unfold insertConstant
  split
  · exact .failed still _ evaluator
  · exact kept_enter still evaluator rfl

private theorem kept_random : Kept config session evaluator .random (session.random evaluator) := by
  unfold random
  split
  · exact .failed (.still rfl rfl) _ evaluator
  · rename_i value rest _
    have still : Records none session { session with draws := rest } := .still rfl rfl
    exact kept_enter still evaluator rfl

private theorem still_written (session : Session) (value : Float) {written : Session}
    (success : session.write? value = .ok written) : Records none session written := by
  rcases write?_cases session value with refused | displayed
  · rw [refused] at success
    cases success
  · rw [displayed] at success
    cases success
    exact .still rfl rfl

private theorem still_toggleSign : Records none session (session.toggleSign evaluator).session := by
  unfold toggleSign
  split
  · split
    · exact .still rfl rfl
    · rename_i written
      exact still_written session _ written
  · exact .still rfl rfl

private theorem still_memoryRecall : Records none session (session.memoryRecall evaluator).session := by
  unfold memoryRecall
  split
  · exact .still rfl rfl
  split
  · exact .still rfl rfl
  split
  · exact .still rfl rfl
  · rename_i written
    exact still_written session _ written

private theorem still_memoryUpdate (combine : Datum → Float → Except Failure Float) :
    Records none session (session.memoryUpdate config combine evaluator).session := by
  unfold memoryUpdate
  split
  · exact .still rfl rfl
  split
  · exact .still rfl rfl
  · exact .still rfl rfl

private theorem still_performMemory (asked : MemoryRequest) :
    Records none session (performMemory config asked session evaluator).session := by
  match asked with
  | .clear => exact .still rfl rfl
  | .recall => exact still_memoryRecall
  | .add | .subtract | .store => exact still_memoryUpdate _

/-- What is not asked by a command leaves the history that its entry leaves. -/
theorem kept_operation (operation : Request) (direct : ∀ line, operation ≠ .command line) :
    Kept config session evaluator operation (session.perform config operation evaluator) := by
  cases operation with
  | calculate text? => exact kept_calculate text?
  | apply name => exact kept_apply name
  | constant name => exact kept_constant name
  | random => exact kept_random
  | setExpression | currentValue | setMode | clear => exact .still rfl rfl
  | toggleSign => exact still_toggleSign
  | memory asked => exact still_performMemory asked
  | command line => exact absurd rfl (direct line)

private theorem session_saying (outcome : Outcome) (say : Reply → Session → String) :
    (outcome.saying say).session = outcome.session := by
  unfold Outcome.saying
  split <;> rfl

/-- A command leaves what the operation leaves that it stands for. -/
theorem session_command (line : String) :
    (commanded? line = none ∧ (performCommand config line session evaluator).session = session) ∨
      ∃ operation, commanded? line = some operation ∧ (∀ other, operation ≠ .command other) ∧
        (performCommand config line session evaluator).session =
          (session.perform config operation evaluator).session := by
  unfold commanded? performCommand
  dsimp only
  split
  · exact .inr ⟨_, rfl, nofun, rfl⟩
  split
  · exact .inr ⟨_, rfl, nofun, rfl⟩
  split
  · exact .inl ⟨rfl, rfl⟩
  cases memoryCommands.lookup line with
  | some asked => exact .inr ⟨_, rfl, nofun, session_saying _ _⟩
  | none =>
    dsimp only
    split
    · exact .inr ⟨_, rfl, nofun, session_saying _ _⟩
    split
    · exact .inr ⟨_, rfl, nofun, session_saying _ _⟩
    split
    · exact .inr ⟨_, rfl, nofun, session_saying _ _⟩
    · exact .inl ⟨rfl, rfl⟩

private theorem records_perform (config : Config) (session : Session) (evaluator : Evaluator)
    (request : Request) :
    Records (logged? config session evaluator request) session
      (session.perform config request evaluator).session := by
  by_cases direct : ∀ line, request ≠ .command line
  · have same : operation? request = some request := by
      cases request with
      | command line => exact absurd rfl (direct line)
      | _ => rfl
    rw [logged?, same]
    exact kept_operation request direct
  · simp only [ne_eq, not_forall, not_not] at direct
    obtain ⟨line, rfl⟩ := direct
    rw [logged?, operation?, perform]
    rcases @session_command config session evaluator line with
      ⟨nothing, left⟩ | ⟨operation, stands, direct, left⟩
    · rw [nothing, left]
      exact .still rfl rfl
    · rw [stands, left]
      exact kept_operation operation direct

private theorem rtake_concat (size : Nat) (entries : List String) (entry : String) :
    (entries.rtake size ++ [entry]).rtake size = (entries ++ [entry]).rtake size := by
  cases size with
  | zero => simp
  | succ rest =>
    rw [List.rtake_concat_succ, List.rtake_concat_succ]
    simp [List.rtake_eq_reverse_take_reverse, List.take_take]

private theorem history_record (bound : session.historySize = some size) (entry : String) :
    (session.record entry).history = (session.history ++ [entry]).rtake size := by
  simp only [record, bound]
  rfl

/-- The history is the end of these entries, as far as it reaches. -/
structure EndsLog (size : Nat) (entries : List String) (session : Session) : Prop where
  bound : session.historySize = some size
  history : session.history = entries.rtake size

theorem EndsLog.perform (ends : EndsLog size entries session) (request : Request) :
    EndsLog size (entries ++ (logged? config session evaluator request).toList)
      (session.perform config request evaluator).session := by
  obtain ⟨bound, history⟩ := ends
  obtain ⟨records, kept⟩ := records_perform config session evaluator request
  refine ⟨kept.trans bound, records.trans ?_⟩
  cases logged? config session evaluator request with
  | none => simpa using history
  | some entry =>
    rw [Option.elim_some, history_record bound, history, rtake_concat]
    rfl

theorem EndsLog.run {requests : List Request} {place : Nat} (ends : EndsLog size entries session)
    (reached : (session.run config evaluator requests)[place]? = some outcome) :
    EndsLog size (entries ++ log config session evaluator (requests.take (place + 1)))
      outcome.session := by
  -- The first request adds its entry to those from before; the rest starts from all of them.
  induction requests generalizing entries session evaluator place with
  | nil => cases reached
  | cons request rest ih =>
    rw [Session.run] at reached
    have first := @EndsLog.perform config session evaluator _ _ ends request
    rw [List.take_succ_cons, log, ← List.append_assoc]
    cases place with
    | zero =>
      cases reached
      simpa [log] using first
    | succ place => exact ih first reached

private theorem endsLog_new {mode : AngleMode} {historySize? : Option Datum} {draws : List Float}
    (wanted : wantedHistory config historySize? = .integer size)
    (fresh : Session.new config mode historySize? draws = .ok session) : EndsLog size [] session := by
  rw [Session.new, wanted, historyBound] at fresh
  split_ifs at fresh
  · cases fresh
  · cases fresh
  · cases fresh
    exact ⟨rfl, (List.rtake_nil size).symm⟩

def Enters : Request → Prop
  | .calculate _ | .apply _ | .constant _ | .random => True
  | _ => False

/-- A quick function with a result had a value to be applied to. -/
theorem currentValue_of_apply {name : String} {result : Float}
    (applied : (session.apply config name evaluator).reply = .ok (.number result)) :
    ∃ value, (session.currentValue config evaluator).1 = .ok value := by
  unfold Session.apply at applied
  split at applied
  · cases applied
  · rename_i value later current
    exact ⟨value, congrArg Prod.fst current⟩

private theorem isSome_noted? {operation : Request} {reply : Except Failure Reply}
    (valued : ∀ name, operation = .apply name → ∀ result, reply = .ok (.number result) →
      ∃ value, (session.currentValue config evaluator).1 = .ok value) :
    (noted? config session evaluator operation reply).isSome = true ↔
      Enters operation ∧ ∃ value, reply = .ok (.number value) := by
  cases operation with
  | apply name =>
    match reply with
    | .error _ | .ok .nothing | .ok (.text _) => simp [noted?]
    | .ok (.number result) =>
      obtain ⟨value, current⟩ := valued name rfl result rfl
      simp [noted?, current, Enters]
  | calculate | constant | random =>
    match reply with
    | .error _ | .ok .nothing | .ok (.text _) | .ok (.number _) => simp [noted?, Enters]
  | setExpression | currentValue | toggleSign | memory | setMode | clear | command =>
    simp [noted?, Enters]

/-- There is an entry for each of these operations that is replied to with a number, and for
nothing else. -/
theorem isSome_logged? (config : Config) (session : Session) (evaluator : Evaluator)
    (request : Request) :
    (logged? config session evaluator request).isSome = true ↔
      ∃ operation, operation? request = some operation ∧ Enters operation ∧
        ∃ value, (session.perform config operation evaluator).reply = .ok (.number value) := by
  unfold logged?
  cases operation? request with
  | none => simp
  | some operation =>
    simp only [Option.bind_some, Option.some.injEq, exists_eq_left']
    apply isSome_noted?
    rintro name rfl result applied
    exact currentValue_of_apply applied

/-- In every run of a new session the history is the end of the log, as many entries as it was
given room for. In whatever state a session is, a request adds an entry just if it asks for one of
four operations and a number is replied, and one that adds none leaves the history as it was. -/
theorem history_ends_log {config : Config} {mode : AngleMode} {historySize? : Option Datum}
    {size : Nat} {draws : List Float} {session : Session} {evaluator : Evaluator}
    {requests : List Request} (wanted : wantedHistory config historySize? = .integer size)
    (fresh : Session.new config mode historySize? draws = .ok session) :
    (∀ place outcome, (session.run config evaluator requests)[place]? = some outcome →
      outcome.session.history =
        (log config session evaluator (requests.take (place + 1))).rtake size) ∧
    ∀ (state : Session) (keeper : Evaluator) (request : Request),
      ((logged? config state keeper request).isSome = true ↔
        ∃ operation, operation? request = some operation ∧ Enters operation ∧
          ∃ value, (state.perform config operation keeper).reply = .ok (.number value)) ∧
      (logged? config state keeper request = none →
        (state.perform config request keeper).session.history = state.history) := by
  constructor
  · intro place outcome reached
    exact ((endsLog_new wanted fresh).run reached).history
  · intro state keeper request
    refine ⟨isSome_logged? config state keeper request, fun silent => ?_⟩
    have records := (records_perform config state keeper request).history
    rwa [silent] at records

theorem history_ends_log_commands :
    let session : Session :=
      { memory := .real 0.0, mode := .degrees, historySize := some 2, draws := [0.25] }
    let evaluator := Evaluator.new {} none (some .degrees)
    let requests : List Request := [.calculate (some "1000*2"), .calculate (some "5+"), .memory .add,
      .command ":square", .toggleSign, .constant "e", .calculate (some "0"), .command ":rand"]
    wantedHistory {} (some (.integer 2)) = .integer 2 ∧
      Session.new {} .degrees (some (.integer 2)) [0.25] = .ok session ∧
      log {} session evaluator requests =
        ["1000*2 = 2,000", "square(2,000) = 4,000,000", "e entered", "Random: 0.25"] ∧
      ∃ outcome, (session.run {} evaluator requests)[7]? = some outcome ∧
        outcome.session.history = ["e entered", "Random: 0.25"] := by
  intro session evaluator requests
  have wanted : wantedHistory {} (some (.integer 2)) = .integer 2 := rfl
  have fresh : Session.new {} .degrees (some (.integer 2)) [0.25] = .ok session := rfl
  have logged : log {} session evaluator requests =
      ["1000*2 = 2,000", "square(2,000) = 4,000,000", "e entered", "Random: 0.25"] := by
    decide +kernel
  obtain ⟨outcome, reached⟩ : ∃ outcome, (session.run {} evaluator requests)[7]? = some outcome :=
    ⟨_, rfl⟩
  have ends := (@history_ends_log _ _ _ _ _ _ evaluator requests wanted fresh).1 7
    outcome reached
  have all : requests.take 8 = requests := rfl
  rw [all, logged] at ends
  exact ⟨wanted, fresh, logged, outcome, reached, ends⟩

end Reckon.Proofs.HistoryLog
