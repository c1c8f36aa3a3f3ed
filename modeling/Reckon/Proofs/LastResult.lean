import Reckon.Proofs.SessionEffects
import Reckon.Proofs.SharedEvaluator

/-! Where the result of a session comes from. It is the value of what was on display when it
was calculated, and that is still on display unless a text that was given for another
calculation has replaced it and came to nothing. -/

namespace Reckon.Proofs.LastResult
open Session SessionEffects SharedEvaluator Transparency

def Calculates (config : Config) (value : Float) (step : Request × Outcome) : Prop :=
  (∃ text?, step.1 = .calculate text?) ∧ step.2.reply = .ok (.number value) ∧
    Reckon.evaluate config step.2.session.mode (some step.2.session.expression) = .ok value

/-- A text that was given to be calculated: it failed, or there was nothing to calculate. -/
def ComesToNothing (text : String) (step : Request × Outcome) : Prop :=
  step.1 = .calculate (some text) ∧ ∀ value, step.2.reply ≠ .ok (.number value)

/-- The result, if there is one, was calculated in the course of the steps, and the expression
is the one it was calculated from or came to nothing later on. -/
def Explained (config : Config) (steps : List (Request × Outcome)) (session : Session) : Prop :=
  ∀ value, session.result = some value → ∃ before step after,
    steps = before ++ step :: after ∧ Calculates config value step ∧
      (session.expression = step.2.session.expression ∨
        ∃ later ∈ after, ComesToNothing session.expression later)

variable {config : Config} {steps : List (Request × Outcome)} {session after : Session}
  {request : Request} {outcome : Outcome}

/-- A step that changes neither the expression nor the result. -/
theorem Explained.keep (explained : Explained config steps session) (step : Request × Outcome)
    (expression : after.expression = session.expression) (result : after.result = session.result) :
    Explained config (steps ++ [step]) after := by
  intro value kept
  obtain ⟨before, source, rest, rfl, calculated, origin⟩ := explained value (result ▸ kept)
  refine ⟨before, source, rest ++ [step], by simp, calculated, ?_⟩
  rw [expression]
  rcases origin with same | ⟨later, inside, nothing⟩
  · exact .inl same
  · exact .inr ⟨later, List.mem_append_left _ inside, nothing⟩

theorem Explained.replace (explained : Explained config steps session) {text : String}
    {step : Request × Outcome} (nothing : ComesToNothing text step)
    (expression : after.expression = text) (result : after.result = session.result) :
    Explained config (steps ++ [step]) after := by
  intro value kept
  obtain ⟨before, source, rest, rfl, calculated, -⟩ := explained value (result ▸ kept)
  refine ⟨before, source, rest ++ [step], by simp, calculated, .inr ⟨step, by simp, ?_⟩⟩
  rwa [expression]

theorem Explained.forget (steps : List (Request × Outcome)) (none : session.result = none) :
    Explained config steps session := by
  intro value kept
  rw [none] at kept
  cases kept

private theorem result_of_new {mode : AngleMode} {historySize? : Option Datum} {draws : List Float}
    (fresh : Session.new config mode historySize? draws = .ok session) : session.result = none := by
  unfold Session.new at fresh
  cases bound : historyBound (wantedHistory config historySize?) with
  | error failure =>
    rw [bound] at fresh
    cases fresh
  | ok historySize =>
    rw [bound] at fresh
    cases fresh
    rfl

theorem Explained.calculate {step : Request × Outcome} {value : Float}
    (calculated : Calculates config value step) (result : step.2.session.result = some value) :
    Explained config (steps ++ [step]) step.2.session := by
  intro other kept
  cases result.symm.trans kept
  exact ⟨steps, step, [], rfl, calculated, .inl rfl⟩

/-- What a request leaves of the display and the result, if it comes to no value. -/
theorem Explained.quiet (explained : Explained config steps session)
    (expression : outcome.session.expression = shown request session)
    (result : outcome.session.result = session.result)
    (valueless : ∀ text?, request = .calculate text? →
      ∀ value, outcome.reply ≠ .ok (.number value)) :
    Explained config (steps ++ [(request, outcome)]) outcome.session := by
  unfold shown at expression
  split at expression
  · exact explained.replace ⟨rfl, valueless _ rfl⟩ expression result
  · exact explained.keep _ expression result

theorem Explained.perform {evaluator : Evaluator} {mode : AngleMode}
    (explained : Explained config steps session) (sound : Sound config mode evaluator)
    (typed : ∀ text, request ≠ .setExpression text)
    (performed : session.perform config request evaluator = outcome) :
    Explained config (steps ++ [(request, outcome)]) outcome.session := by
  have effect : HasEffect config evaluator { session with expression := shown request session }
      request outcome := performed ▸ perform_effect config request session evaluator
  clear performed
  obtain ⟨reply, after, later⟩ := outcome
  cases effect with
  | failed failure draws => exact explained.quiet rfl rfl fun _ _ _ => nofun
  | idle => exact explained.quiet rfl rfl fun _ _ _ => nofun
  | calculated evaluated =>
    rw [sound.evaluate_in] at evaluated
    exact .calculate ⟨⟨_, rfl⟩, rfl, evaluated⟩ rfl
  | assigned => exact absurd rfl (typed _)
  | rewritten reply expression history draws => exact .forget _ rfl
  | beside other reply memory memorySet mode =>
    exact explained.quiet rfl rfl fun text? same => absurd same (other text?)

def stepsOf (config : Config) (session : Session) (evaluator : Evaluator)
    (requests : List Request) : List (Request × Outcome) :=
  requests.zip (session.run config evaluator requests)

theorem Explained.run {evaluator : Evaluator} {mode : AngleMode} {requests : List Request}
    (explained : Explained config steps session) (sound : Sound config mode evaluator)
    (typed : ∀ text, .setExpression text ∉ requests) {place : Nat}
    (reached : (session.run config evaluator requests)[place]? = some outcome) :
    Explained config (steps ++ (stepsOf config session evaluator requests).take (place + 1))
      outcome.session := by
  induction requests generalizing steps session evaluator place with
  | nil => cases reached
  | cons request rest ih =>
    have named : ∀ text, request ≠ .setExpression text := by
      intro text same
      exact typed text (same ▸ List.mem_cons_self)
    have first := explained.perform sound named (Eq.refl (session.perform config request evaluator))
    have kept := (perform_alike sound sound request session).first
    rw [stepsOf, Session.run, List.zip_cons_cons, List.take_succ_cons]
    cases place with
    | zero =>
      cases reached
      exact first
    | succ place =>
      rw [List.append_cons]
      have others : ∀ text, .setExpression text ∉ rest :=
        fun text inside => typed text (List.mem_cons_of_mem _ inside)
      exact ih first kept others reached

/-- In every run of a new session a result has a value to stand for: that of the expression
on display, or, if a text that was given for a calculation has come to nothing, that of an
expression which was calculated before that text took its place. -/
theorem result_of_display {config : Config} {historySize? capacity? : Option Datum}
    {mode : AngleMode} {mode? : Option AngleMode} {draws : List Float} {session : Session}
    {requests : List Request} (fresh : Session.new config mode historySize? draws = .ok session)
    (whole : IsWhole (capacity?.getD config.cacheSize))
    (typed : ∀ text, .setExpression text ∉ requests) {place : Nat} {outcome : Outcome}
    (reached : (session.run config (Evaluator.new config capacity? mode?) requests)[place]? =
      some outcome) {value : Float} (result : outcome.session.result = some value) :
    (∃ unit, Reckon.evaluate config unit (some outcome.session.expression) = .ok value) ∨
      ∃ before step after,
        (stepsOf config session (Evaluator.new config capacity? mode?) requests).take (place + 1) =
          before ++ step :: after ∧
        Calculates config value step ∧
        ∃ later ∈ after, ComesToNothing outcome.session.expression later := by
  have sound : Sound config (mode?.getD config.defaultMode)
      (Evaluator.new config capacity? mode?) := sound_new whole
  have initial : Explained config [] session := .forget [] (result_of_new fresh)
  have explained := initial.run sound typed reached
  obtain ⟨before, step, after, parts, calculated, origin⟩ := explained value result
  rcases origin with same | nothing
  · exact .inl ⟨step.2.session.mode, same ▸ calculated.2.2⟩
  · exact .inr ⟨before, step, after, parts, calculated, nothing⟩

theorem result_of_display_replaced :
    let session : Session := { memory := .real 0.0, mode := .degrees, historySize := some 3 }
    let evaluator := Evaluator.new {} none (some .degrees)
    let requests : List Request := [.calculate (some "2+2"), .calculate (some "0")]
    Session.new {} .degrees none [] = .ok session ∧
      ∃ outcome, (session.run {} evaluator requests)[1]? = some outcome ∧
        outcome.session.result = some 4.0 ∧ outcome.session.expression = "0" ∧
        (∀ unit, Reckon.evaluate {} unit (some "0") ≠ .ok 4.0) ∧
        ∃ before step after, (stepsOf {} session evaluator requests).take 2 =
            before ++ step :: after ∧
          Calculates {} 4.0 step ∧ ∃ later ∈ after, ComesToNothing "0" later := by
  intro session evaluator requests
  have shown : (session.run {} evaluator requests)[1]?.map
      (fun outcome => (outcome.session.result, outcome.session.expression)) =
        some (some 4.0, "0") := by decide +kernel
  have elsewhere (unit : AngleMode) : (Reckon.evaluate {} unit (some "0")).toOption ≠ some 4.0 := by
    cases unit <;> decide +kernel
  have fresh : Session.new {} .degrees none [] = .ok session := rfl
  obtain ⟨outcome, reached, same⟩ := Option.map_eq_some_iff.mp shown
  obtain ⟨result, expression⟩ := Prod.mk.inj same
  have stale (unit : AngleMode) : Reckon.evaluate {} unit (some "0") ≠ .ok 4.0 := by
    intro evaluated
    exact elsewhere unit (congrArg Except.toOption evaluated)
  refine ⟨fresh, outcome, reached, result, expression, stale, ?_⟩
  have typed : ∀ text, .setExpression text ∉ requests := by simp [requests]
  rcases @result_of_display {} none none .degrees (some .degrees) [] session requests fresh
    ⟨1000, rfl⟩ typed 1 outcome reached 4.0 result with ⟨unit, evaluated⟩ | replaced
  · exact absurd (expression ▸ evaluated) (stale unit)
  · exact expression ▸ replaced

end Reckon.Proofs.LastResult
