import Reckon.Session.Request

/-! What a request can do to a session. There are six ways, and in one of them, that of a
failure, next to nothing changes: all that was written down before a request failed is
what it was. -/

namespace Reckon.Proofs.SessionEffects
open Session

/-- The expression that a request works on. A calculation may be given another one, which is
then on display. -/
def shown (request : Request) (session : Session) : String :=
  match request with
  | .calculate (some text) => text
  | _ => session.expression

inductive Effect (config : Config) (evaluator : Evaluator) (session : Session) :
    Request → Except Failure Reply → Session → Prop where
  /-- Only random numbers may have been used up. -/
  | failed {request : Request} (failure : Failure) (draws : List Float) :
      Effect config evaluator session request (.error failure) { session with draws }
  /-- There was nothing to calculate. -/
  | idle {text? : Option String} :
      Effect config evaluator session (.calculate text?) (.ok .nothing) session
  | calculated {text? : Option String} {value : Float} {history : List String}
      (evaluated : (evaluator.evaluate config (some session.expression) (some session.mode)).1 =
        .ok value) :
      Effect config evaluator session (.calculate text?) (.ok (.number value))
        { session with result := some value, history }
  | assigned {text : String} :
      Effect config evaluator session (.setExpression text) (.ok .nothing)
        { session with expression := text }
  /-- Another expression is on display, and nothing was calculated from it yet. -/
  | rewritten {request : Request} (reply : Reply) (expression : String) (history : List String)
      (draws : List Float) :
      Effect config evaluator session request (.ok reply)
        { session with expression, result := none, history, draws }
  /-- The expression and the result stay as they are. -/
  | beside {request : Request} (other : ∀ text?, request ≠ .calculate text?) (reply : Reply)
      (memory : Datum) (memorySet : Bool) (mode : AngleMode) :
      Effect config evaluator session request (.ok reply) { session with memory, memorySet, mode }

variable {config : Config} {session : Session} {evaluator : Evaluator} {request : Request}

theorem exists_record (session : Session) (entry : String) :
    ∃ history, session.record entry = { session with history } := by
  unfold record
  split
  · exact ⟨_, rfl⟩
  · exact ⟨_, rfl⟩

theorem write?_cases (session : Session) (value : Float) :
    session.write? value = .error (.evaluation (.unwritable value) (some session.expression)) ∨
      session.write? value = .ok { session with expression := literal value, result := none } := by
  unfold write?
  split
  · exact .inr rfl
  · exact .inl rfl

abbrev HasEffect (config : Config) (evaluator : Evaluator) (session : Session) (request : Request)
    (outcome : Outcome) : Prop :=
  Effect config evaluator session request outcome.reply outcome.session

private theorem enter_effect (draws : List Float) (after : Evaluator) (value : Float) (entry : String) :
    HasEffect config evaluator session request
      ({ session with draws }.enter after value entry) := by
  unfold enter
  rcases write?_cases { session with draws } value with refused | written
  · rw [refused]
    exact .failed _ draws
  · obtain ⟨history, recorded⟩ :=
      exists_record { session with draws, expression := literal value, result := none } entry
    rw [written]
    simp only [recorded]
    exact .rewritten _ _ history draws

private theorem apply_effect (name : String) (after : Evaluator) :
    HasEffect config evaluator session request (session.apply config name after) := by
  unfold Session.apply
  split
  · exact .failed _ session.draws
  · split
    · exact .failed _ session.draws
    · exact enter_effect session.draws _ _ _

private theorem insertConstant_effect (name : String) (after : Evaluator) :
    HasEffect config evaluator session request (session.insertConstant name after) := by
  unfold insertConstant
  split
  · exact .failed _ session.draws
  · exact enter_effect session.draws _ _ _

private theorem random_effect (after : Evaluator) :
    HasEffect config evaluator session request (session.random after) := by
  unfold random
  split
  · exact .failed _ session.draws
  · exact enter_effect _ _ _ _

private theorem toggleSign_effect (after : Evaluator) :
    HasEffect config evaluator session request (session.toggleSign after) := by
  unfold toggleSign
  split
  · rename_i value _
    rcases write?_cases session (-value) with refused | written
    · rw [refused]
      exact .failed _ session.draws
    · rw [written]
      exact .rewritten _ _ session.history session.draws
  · rename_i none
    have turned (text : String) : HasEffect config evaluator session request
        ⟨.ok (.text text), { session with expression := text }, after⟩ := by
      have same : { session with expression := text } =
          { session with expression := text, result := Option.none } := by rw [← none]
      rw [same]
      exact .rewritten _ _ session.history session.draws
    exact turned _

section Beside

variable (other : ∀ text?, request ≠ .calculate text?)

include other

private theorem unchanged_effect (reply : Except Failure Reply) (after : Evaluator) :
    HasEffect config evaluator session request ⟨reply, session, after⟩ := by
  cases reply with
  | error failure => exact .failed failure session.draws
  | ok reply => exact .beside other reply session.memory session.memorySet session.mode

private theorem memoryRecall_effect (after : Evaluator) :
    HasEffect config evaluator session request (session.memoryRecall after) := by
  unfold memoryRecall
  split
  · exact unchanged_effect other _ after
  · split
    · exact .failed _ session.draws
    · rename_i memory _
      rcases write?_cases session memory with refused | written
      · rw [refused]
        exact .failed _ session.draws
      · rw [written]
        exact .rewritten _ _ session.history session.draws

private theorem memoryUpdate_effect (combine : Datum → Float → Except Failure Float) (after : Evaluator) :
    HasEffect config evaluator session request (session.memoryUpdate config combine after) := by
  unfold memoryUpdate
  split
  · exact .failed _ session.draws
  · split
    · exact .failed _ session.draws
    · exact .beside other _ _ true session.mode

private theorem performMemory_effect (asked : MemoryRequest) (after : Evaluator) :
    HasEffect config evaluator session request (performMemory config asked session after) := by
  match asked with
  | .clear => exact .beside other _ _ false session.mode
  | .recall => exact memoryRecall_effect other after
  | .add => exact memoryUpdate_effect other memorySum after
  | .subtract => exact memoryUpdate_effect other memoryDifference after
  | .store => exact memoryUpdate_effect other (fun _ value => .ok value) after

end Beside

/-- A command says something else than the operation that it stands for, and does the same. -/
theorem saying_effect {line : String} {outcome : Outcome}
    (effect : HasEffect config evaluator session (.command line) outcome)
    (say : Reply → Session → String) :
    HasEffect config evaluator session (.command line) (outcome.saying say) := by
  obtain ⟨reply, after, later⟩ := outcome
  cases effect with
  | failed failure draws => exact .failed failure draws
  | rewritten reply expression history draws => exact .rewritten _ expression history draws
  | beside other reply memory memorySet mode => exact .beside other _ memory memorySet mode

private theorem performCommand_effect (line : String) (after : Evaluator) :
    HasEffect config evaluator session (.command line) (performCommand config line session after) := by
  unfold performCommand
  dsimp only
  split
  · exact .beside (by nofun) _ session.memory session.memorySet _
  split
  · exact .beside (by nofun) _ session.memory session.memorySet _
  split
  · exact unchanged_effect (by nofun) _ after
  split
  · exact saying_effect (performMemory_effect (by nofun) _ after) _
  split
  · exact saying_effect (insertConstant_effect _ after) _
  split
  · exact saying_effect (random_effect after) _
  split
  · exact saying_effect (apply_effect _ after) _
  · exact unchanged_effect (by nofun) _ after

private theorem evaluateDisplay_effect (text? : Option String) :
    HasEffect config evaluator session (.calculate text?)
      (evaluateDisplay config session evaluator) := by
  unfold evaluateDisplay
  split
  · exact .idle
  split
  · exact .failed _ session.draws
  split
  · exact .failed _ session.draws
  · rename_i value after evaluated
    obtain ⟨history, recorded⟩ := exists_record { session with result := some value }
      s!"{session.expression} = {grouped value}"
    simp only [recorded]
    exact .calculated (by rw [evaluated])

/-- Everything that a request can do. -/
theorem perform_effect (config : Config) (request : Request) (session : Session)
    (evaluator : Evaluator) :
    HasEffect config evaluator { session with expression := shown request session } request
      (session.perform config request evaluator) := by
  cases request with
  | setExpression text => exact .assigned
  | calculate text? =>
    cases text? with
    | none => exact evaluateDisplay_effect none
    | some text => exact evaluateDisplay_effect (some text)
  | currentValue => exact unchanged_effect (by nofun) _ _
  | apply name => exact apply_effect name evaluator
  | constant name => exact insertConstant_effect name evaluator
  | random => exact random_effect evaluator
  | toggleSign => exact toggleSign_effect evaluator
  | memory asked => exact performMemory_effect (by nofun) asked evaluator
  | setMode mode => exact .beside (by nofun) _ session.memory session.memorySet mode
  | clear => exact .rewritten _ _ session.history session.draws
  | command line => exact performCommand_effect line evaluator

theorem session_of_failed {failure : Failure}
    (failed : (session.perform config request evaluator).reply = .error failure) :
    ∃ draws, (session.perform config request evaluator).session =
      { session with expression := shown request session, draws } := by
  have effect : Effect config evaluator { session with expression := shown request session }
      request (.error failure) (session.perform config request evaluator).session :=
    failed ▸ perform_effect config request session evaluator
  generalize (session.perform config request evaluator).session = after at effect
  cases effect with
  | failed failure draws => exact ⟨draws, rfl⟩

/-- Whatever is asked and wherever it fails, the result, the memory, the unit of angles and
the history are those from before. So is the expression, unless it was given to be
calculated. -/
theorem kept_by_failure {config : Config} {request : Request} {session : Session}
    {evaluator : Evaluator} {outcome : Outcome} {failure : Failure}
    (performed : session.perform config request evaluator = outcome)
    (failed : outcome.reply = .error failure) :
    outcome.session.result = session.result ∧ outcome.session.memory = session.memory ∧
      outcome.session.memorySet = session.memorySet ∧ outcome.session.mode = session.mode ∧
      outcome.session.history = session.history ∧
      outcome.session.expression = shown request session := by
  subst performed
  obtain ⟨draws, same⟩ := session_of_failed failed
  rw [same]
  exact ⟨rfl, rfl, rfl, rfl, rfl, rfl⟩

theorem kept_by_failure_trailing :
    let session : Session := {
      expression := "2+2"
      result := some 4.0
      memory := .real 1.0
      memorySet := true
      mode := .radians
      history := ["2+2 = 4"]
      historySize := some 3 }
    ∃ outcome, session.perform {} (.calculate (some "5+")) (Evaluator.new {} none none) = outcome ∧
      outcome.reply = .error (.evaluation .trailingOperator (some "5+")) ∧
      outcome.session.result = some 4.0 ∧ outcome.session.expression = "5+" := by
  intro session
  have busy : ({ session with expression := "5+" } : Session).isIdle = false := by decide +kernel
  have trailing : Entry.endsInOperator "5+".toList = true := by decide +kernel
  have failed : (session.perform {} (.calculate (some "5+")) (Evaluator.new {} none none)).reply =
      .error (.evaluation .trailingOperator (some "5+")) := by
    rw [perform, calculate, Option.getD_some, evaluateDisplay, busy, objection?, trailing]
    rfl
  obtain ⟨result, -, -, -, -, expression⟩ := kept_by_failure rfl failed
  exact ⟨_, rfl, failed, result, expression⟩

end Reckon.Proofs.SessionEffects
