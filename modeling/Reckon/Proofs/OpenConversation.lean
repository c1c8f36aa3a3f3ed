import Reckon.CommandLine.Program
import Reckon.Proofs.ErrorContract
import Reckon.Proofs.KeyFailures
import Reckon.Proofs.SessionEffects
import Reckon.Proofs.SharedEvaluator

/-! A conversation stays open until it is ended. Whatever is entered, a failure is one that can
be shown, so that each line gets its prompt; and a failure leaves the session as it was. -/

namespace Reckon.Proofs.OpenConversation
open CommandLine Conversation Session ErrorContract SessionEffects SharedEvaluator Transparency

/-- A prompt with what follows it: the line that is read, unless the input has ended, the reply,
and the conversation before and after. -/
structure Exchange where
  before : Conversation
  line? : Option String
  reply : Except Failure Reply
  after : Conversation

def Exchange.text (exchange : Exchange) : String :=
  exchange.before.prompt ++ (showOutcome exchange.reply).toOption.getD ""

def exchanges (config : Config) (conversation : Conversation) : List String → List Exchange
  | [] => [⟨conversation, none, .ok .nothing, conversation⟩]
  | line :: rest =>
    match interpret (Text.strip line) with
    | .finish => [⟨conversation, some line, .ok .nothing, conversation⟩]
    | .ignore =>
      ⟨conversation, some line, .ok .nothing, conversation⟩ :: exchanges config conversation rest
    | .ask request =>
      let outcome := conversation.session.perform config request conversation.evaluator
      let after : Conversation := ⟨outcome.session, outcome.evaluator⟩
      ⟨conversation, some line, outcome.reply, after⟩ ::
        if (showOutcome outcome.reply).isOk then exchanges config after rest else []

def isFarewell (line : String) : Bool :=
  Text.strip line == "quit" || Text.strip line == "exit"

def isDraw (line : String) : Bool :=
  Text.strip line == ":rand"

def Shown (failure : Failure) : Prop :=
  ∃ text, showFailure failure = .ok text

private theorem shown_evaluation (cause : Cause) (text? : Option String) :
    Shown (.evaluation cause text?) :=
  ⟨_, rfl⟩

private theorem shown_refused (refusal : Refusal) : Shown (.refused refusal) :=
  ⟨_, rfl⟩

/-- The range that is set up ends below the factorials that no double can hold. -/
theorem held_default (name : String) (x : Float) : ¬ KeyFailures.Unheld 0 100 name x := by
  rintro ⟨-, n, -, -, below, infinite⟩
  have small : n ≤ 170 := by omega
  rw [GreatestFactorial.isFinite_factorial.mpr small] at infinite
  cases infinite

private theorem shown_default (name : String) (x : Float) : ¬ KeyFailures.Unshown 0 100 name x := by
  rintro ⟨-, n, -, -, ends⟩
  exact ends (by decide +kernel)

private theorem applyNamed_shown (mode : AngleMode) (name : String) (x : Float) :
    FailsOnly Shown (QuickFunction.applyNamed {} mode name (.real x)) := by
  intro failure failed
  cases KeyFailures.applyNamed_own rfl rfl (held_default name x) (shown_default name x) failure
    failed with
  | operand cause => exact shown_evaluation cause none
  | unknown => exact shown_refused _

/-- Nothing in the outcome ends the conversation, now or later: a failure can be shown, the memory
holds a double, and these random numbers are left. -/
structure Steady (draws : List Float) (outcome : Outcome) : Prop where
  shown : FailsOnly Shown outcome.reply
  memory : ∃ value, outcome.session.memory = .real value
  draws : outcome.session.draws = draws

variable {session : Session} {evaluator : Evaluator} {mode : AngleMode} {draws : List Float}

theorem Steady.saying {outcome : Outcome} (steady : Steady draws outcome)
    (say : Reply → Session → String) : Steady draws (outcome.saying say) := by
  obtain ⟨reply, after, later⟩ := outcome
  cases reply with
  | error failure => exact steady
  | ok reply => exact ⟨.ok _, steady.memory, steady.draws⟩

private theorem evaluated_shown (sound : Sound {} mode evaluator) (text : String) (unit : AngleMode) :
    FailsOnly Shown (evaluator.evaluate {} (some text) (some unit)).1 := by
  rw [sound.evaluate_in]
  intro failure failed
  obtain ⟨cause, rfl, -⟩ := evaluate_failsOnly unit (some text) failure failed
  exact shown_evaluation cause _

private theorem currentValue_shown (sound : Sound {} mode evaluator) (session : Session) :
    FailsOnly Shown (session.currentValue {} evaluator).1 := by
  unfold currentValue
  split
  · exact .ok _
  · exact evaluated_shown sound session.expression session.mode

section Operations

variable (real : ∃ value, session.memory = .real value)

include real

private theorem steady_still {reply : Except Failure Reply} (shown : FailsOnly Shown reply)
    (after : Evaluator) : Steady session.draws ⟨reply, session, after⟩ :=
  ⟨shown, real, rfl⟩

private theorem steady_enter (after : Evaluator) (value : Float) (entry : String) :
    Steady session.draws (session.enter after value entry) := by
  unfold enter
  rcases write?_cases session value with refused | written
  · rw [refused]
    exact steady_still real (.error (shown_evaluation _ _)) after
  · obtain ⟨history, recorded⟩ :=
      exists_record { session with expression := literal value, result := none } entry
    rw [written]
    simp only [recorded]
    exact ⟨.ok _, real, rfl⟩

private theorem steady_insertConstant (name : String) (after : Evaluator) :
    Steady session.draws (session.insertConstant name after) := by
  unfold insertConstant
  split
  · exact steady_still real (.error (shown_refused _)) after
  · exact steady_enter real after _ _

private theorem steady_random (stocked : session.draws ≠ []) (after : Evaluator) :
    Steady (session.draws.drop 1) (session.random after) := by
  unfold random
  split
  · exact absurd ‹_› stocked
  · rename_i value rest left
    rw [left]
    exact @steady_enter { session with draws := rest } real after _ _

/-- Only one command takes a random number. -/
theorem steady_draw (stocked : session.draws ≠ []) (after : Evaluator) :
    Steady (session.draws.drop 1) (performCommand {} ":rand" session after) :=
  (steady_random real stocked after).saying sayNumber

private theorem steady_memoryRecall (after : Evaluator) :
    Steady session.draws (session.memoryRecall after) := by
  obtain ⟨memory, kept⟩ := real
  have term : (Datum.real memory).toTerm = .ok memory := rfl
  unfold memoryRecall
  simp only [kept, term]
  split
  · exact ⟨.ok _, ⟨memory, kept⟩, rfl⟩
  · rcases write?_cases session memory with refused | written
    · rw [refused]
      exact ⟨.error (shown_evaluation _ _), ⟨memory, kept⟩, rfl⟩
    · rw [written]
      exact ⟨.ok _, ⟨memory, kept⟩, rfl⟩

variable (sound : Sound {} mode evaluator)

include sound

private theorem steady_memoryUpdate (combine : Datum → Float → Except Failure Float)
    (total : ∀ memory value, FailsOnly Shown (combine (.real memory) value)) :
    Steady session.draws (session.memoryUpdate {} combine evaluator) := by
  have current := currentValue_shown sound session
  obtain ⟨memory, kept⟩ := real
  unfold memoryUpdate
  rw [kept]
  split
  · rename_i failure after failed
    exact ⟨.error (current failure (by rw [failed])), ⟨memory, kept⟩, rfl⟩
  · split
    · rename_i failure refused
      exact ⟨.error (total memory _ failure refused), ⟨memory, kept⟩, rfl⟩
    · rename_i stored _
      exact ⟨.ok _, ⟨stored, rfl⟩, rfl⟩

private theorem steady_performMemory (asked : MemoryRequest) :
    Steady session.draws (performMemory {} asked session evaluator) := by
  match asked with
  | .clear => exact ⟨.ok _, ⟨0.0, rfl⟩, rfl⟩
  | .recall => exact steady_memoryRecall real evaluator
  | .add => exact steady_memoryUpdate real sound memorySum fun _ _ => .ok _
  | .subtract => exact steady_memoryUpdate real sound memoryDifference fun _ _ => .ok _
  | .store => exact steady_memoryUpdate real sound (fun _ value => .ok value) fun _ _ => .ok _

private theorem steady_apply (name : String) :
    Steady session.draws (session.apply {} name evaluator) := by
  have current := currentValue_shown sound session
  unfold Session.apply
  split
  · rename_i failure after failed
    exact steady_still real (.error (current failure (by rw [failed]))) after
  · split
    · rename_i value after _ _ failure refused
      exact steady_still real (.error (applyNamed_shown _ name value failure refused)) after
    · exact steady_enter real _ _ _

private theorem steady_evaluateDisplay :
    Steady session.draws (session.evaluateDisplay {} evaluator) := by
  have evaluated := evaluated_shown sound session.expression session.mode
  unfold evaluateDisplay
  split
  · exact steady_still real (.ok _) evaluator
  split
  · exact steady_still real (.error (shown_evaluation _ _)) evaluator
  split
  · rename_i failure after failed
    exact steady_still real (.error (evaluated failure (by rw [failed]))) after
  · rename_i value after _
    obtain ⟨history, recorded⟩ := exists_record { session with result := some value }
      s!"{session.expression} = {grouped value}"
    simp only [recorded]
    exact ⟨.ok _, real, rfl⟩

private theorem steady_calculate (text : String) :
    Steady session.draws (session.perform {} (.calculate (some text)) evaluator) := by
  rw [perform, calculate, Option.getD_some]
  exact @steady_evaluateDisplay { session with expression := text } _ _ real sound

private theorem steady_performCommand {line : String} (other : line ≠ ":rand") :
    Steady session.draws (performCommand {} line session evaluator) := by
  unfold performCommand
  dsimp only
  split
  · exact ⟨.ok _, real, rfl⟩
  split
  · exact ⟨.ok _, real, rfl⟩
  split
  · exact steady_still real (.ok _) evaluator
  split
  · exact (steady_performMemory real sound _).saying _
  split
  · exact (steady_insertConstant real _ evaluator).saying _
  split
  · exact absurd (eq_of_beq ‹_›) other
  split
  · exact (steady_apply real sound _).saying _
  · exact steady_still real (.error (shown_refused _)) evaluator

end Operations

/-- What a conversation keeps: the memory holds a double, the evaluator is sound, and so many
random numbers are left. -/
structure Ready (draws : Nat) (conversation : Conversation) : Prop where
  memory : ∃ value, conversation.session.memory = .real value
  sound : ∃ mode, Sound {} mode conversation.evaluator
  draws : draws ≤ conversation.session.draws.length

variable {conversation : Conversation} {line : String} {request : Request} {count : Nat}

theorem Ready.steady (ready : Ready (count + if isDraw line then 1 else 0) conversation)
    (asked : interpret (Text.strip line) = .ask request) :
    ∃ left : List Float, count ≤ left.length ∧
      Steady left (conversation.session.perform {} request conversation.evaluator) := by
  obtain ⟨real, ⟨mode, sound⟩, enough⟩ := ready
  unfold isDraw at enough
  unfold interpret at asked
  split at asked
  · cases asked
  split at asked
  · cases asked
  split at asked
  · cases asked
    by_cases draw : Text.strip line = ":rand"
    · rw [draw, beq_self_eq_true, if_pos rfl] at enough
      have stocked : conversation.session.draws ≠ [] := List.ne_nil_of_length_pos (by omega)
      refine ⟨conversation.session.draws.drop 1, by rw [List.length_drop]; omega, ?_⟩
      rw [draw]
      exact steady_draw real stocked conversation.evaluator
    · exact ⟨conversation.session.draws, by omega, steady_performCommand real sound draw⟩
  · cases asked
    exact ⟨conversation.session.draws, by omega, steady_calculate real sound _⟩

theorem Ready.perform (ready : Ready (count + if isDraw line then 1 else 0) conversation)
    (asked : interpret (Text.strip line) = .ask request) {outcome : Outcome}
    (performed : conversation.session.perform {} request conversation.evaluator = outcome) :
    FailsOnly Shown outcome.reply ∧ Ready count ⟨outcome.session, outcome.evaluator⟩ := by
  obtain ⟨left, enough, steady⟩ := ready.steady asked
  obtain ⟨mode, sound⟩ := ready.sound
  have later := (perform_alike sound sound request conversation.session).first
  rw [performed] at steady later
  exact ⟨steady.shown, steady.memory, ⟨mode, later⟩, steady.draws ▸ enough⟩

theorem Ready.fewer (ready : Ready (count + if isDraw line then 1 else 0) conversation) :
    Ready count conversation :=
  ⟨ready.memory, ready.sound, Nat.le_of_add_right_le ready.draws⟩

private theorem interpret_eq_finish_iff :
    interpret (Text.strip line) = .finish ↔ isFarewell line = true := by
  unfold interpret isFarewell
  refine ⟨fun finished => ?_, fun farewell => if_pos farewell⟩
  split at finished
  · assumption
  split at finished
  · cases finished
  split at finished <;> cases finished

private theorem prompt_eq (conversation : Conversation) : conversation.prompt =
    match conversation.session.mode with
      | .degrees => "[DEG] > "
      | .radians => "[RAD] > " := by
  rw [prompt]
  cases conversation.session.mode <;> rfl

private theorem text_of_shown {before after : Conversation} {line? : Option String}
    {reply : Except Failure Reply} {text : String} (printed : showOutcome reply = .ok text) :
    Exchange.text ⟨before, line?, reply, after⟩ = before.prompt ++ text := by
  rw [Exchange.text, printed]
  rfl

private theorem text_of_silence (before after : Conversation) (line? : Option String) :
    Exchange.text ⟨before, line?, .ok .nothing, after⟩ = before.prompt :=
  (text_of_shown rfl).trans String.append_empty

private theorem showOutcome_of_shown {reply : Except Failure Reply} (shown : FailsOnly Shown reply) :
    ∃ text, showOutcome reply = .ok text := by
  cases reply with
  | ok reply => exact ⟨_, rfl⟩
  | error failure => exact shown failure rfl

/-- The reply can be shown. If it is a failure, then nothing happened to the session but for its
expression and the random numbers that were used up. -/
structure Exchange.Harmless (exchange : Exchange) : Prop where
  shown : FailsOnly Shown exchange.reply
  kept : ∀ failure, exchange.reply = .error failure → ∃ expression draws,
    exchange.after.session = { exchange.before.session with expression, draws }

private theorem harmless_silence (before after : Conversation) (line? : Option String) :
    Exchange.Harmless ⟨before, line?, .ok .nothing, after⟩ :=
  ⟨.ok _, nofun⟩

private theorem exchanges_farewell (farewell : isFarewell line = true) (rest : List String) :
    exchanges {} conversation (line :: rest) =
      [⟨conversation, some line, .ok .nothing, conversation⟩] := by
  rw [exchanges, interpret_eq_finish_iff.mpr farewell]

private theorem transcript_farewell (farewell : isFarewell line = true) (rest : List String) :
    conversation.transcript {} (line :: rest) = (conversation.prompt, none) := by
  rw [transcript, turn, interpret_eq_finish_iff.mpr farewell]

/-- Any other line is one harmless exchange, and the conversation goes on with the next line. -/
theorem Ready.goes_on (ready : Ready (count + if isDraw line then 1 else 0) conversation)
    (stays : isFarewell line = false) (rest : List String) :
    ∃ exchange after, exchange.line? = some line ∧ exchange.Harmless ∧ Ready count after ∧
      exchanges {} conversation (line :: rest) = exchange :: exchanges {} after rest ∧
      conversation.transcript {} (line :: rest) =
        (exchange.text ++ (after.transcript {} rest).1, (after.transcript {} rest).2) := by
  rw [exchanges, transcript, turn]
  cases answer : interpret (Text.strip line) with
  | finish => exact absurd (interpret_eq_finish_iff.mp answer) (by simp [stays])
  | ignore =>
    refine ⟨_, conversation, rfl, harmless_silence .., ready.fewer, rfl, ?_⟩
    have silent : showOutcome (.ok .nothing) = .ok "" := rfl
    simp only [text_of_shown silent]
  | ask request =>
    have kept {failure} := @session_of_failed {} conversation.session conversation.evaluator
      request failure
    generalize performed : conversation.session.perform {} request conversation.evaluator = outcome
      at kept
    obtain ⟨shown, later⟩ := ready.perform answer performed
    obtain ⟨text, printed⟩ := showOutcome_of_shown shown
    refine ⟨⟨conversation, some line, outcome.reply, ⟨outcome.session, outcome.evaluator⟩⟩, _, rfl,
      ⟨shown, fun _ failed => ⟨_, kept failed⟩⟩, later, ?_, ?_⟩
    · simp only [performed, printed]
      rfl
    · simp only [Conversation.ask, performed, printed, text_of_shown printed]

section Lines

variable {lines : List String} (ready : Ready (lines.countP isDraw) conversation)

include ready

/-- The induction is on the lines. Those that are left never ask for more random numbers than
there are. -/
theorem transcript_eq : conversation.transcript {} lines =
    (String.join ((exchanges {} conversation lines).map Exchange.text), none) := by
  induction lines generalizing conversation with
  | nil => simp [transcript, exchanges, text_of_silence]
  | cons line rest ih =>
    cases farewell : isFarewell line with
    | true => simp [exchanges_farewell farewell, transcript_farewell farewell, text_of_silence]
    | false =>
      rw [List.countP_cons] at ready
      obtain ⟨exchange, after, -, -, later, exchanged, said⟩ := ready.goes_on farewell rest
      simp [said, exchanged, ih later]

private theorem lines_of_exchanges : (exchanges {} conversation lines).map Exchange.line? =
    (lines.takeWhile fun line => !isFarewell line).map some ++
      [(lines.dropWhile fun line => !isFarewell line).head?] := by
  induction lines generalizing conversation with
  | nil => rfl
  | cons line rest ih =>
    cases farewell : isFarewell line with
    | true => simp [exchanges_farewell farewell, farewell]
    | false =>
      rw [List.countP_cons] at ready
      obtain ⟨exchange, after, entered, -, later, exchanged, -⟩ := ready.goes_on farewell rest
      simp [exchanged, entered, farewell, ih later]

private theorem harmless_of_mem {exchange : Exchange} (held : exchange ∈ exchanges {} conversation lines) :
    exchange.Harmless := by
  induction lines generalizing conversation with
  | nil =>
    obtain rfl := List.mem_singleton.mp held
    exact harmless_silence ..
  | cons line rest ih =>
    cases farewell : isFarewell line with
    | true =>
      rw [exchanges_farewell farewell, List.mem_singleton] at held
      subst held
      exact harmless_silence ..
    | false =>
      rw [List.countP_cons] at ready
      obtain ⟨first, after, -, harmless, left, exchanged, -⟩ := ready.goes_on farewell rest
      rw [exchanged, List.mem_cons] at held
      rcases held with rfl | later
      · exact harmless
      · exact ih left later

end Lines

private theorem exists_start (mode : AngleMode) {draws : List Float} (enough : count ≤ draws.length) :
    ∃ start, Conversation.start {} mode draws = .ok start ∧ Ready count start :=
  ⟨_, rfl, ⟨0.0, rfl⟩, ⟨mode, rfl, ⟨1000, rfl⟩, nofun⟩, enough⟩

/-- As long as there are random numbers for those who ask for them, any lines at all lead through
the conversation to its regular end. There is one prompt for each line up to a farewell, or up
to the end of the input; it names the unit of angles, and the reply is shown behind it. A line
that fails has its failure shown, and is as if it had never changed the memory, the history, the
result or the unit of angles. -/
theorem stays_open (world : World) (mode : AngleMode)
    (enough : world.input.countP isDraw ≤ world.draws.length) :
    ∃ start, Conversation.start {} mode world.draws = .ok start ∧
      (runInteractive {} world mode).exit = .ok 0 ∧
      (runInteractive {} world mode).output =
        greeting ++ String.join ((exchanges {} start world.input).map Exchange.text) ∧
      (exchanges {} start world.input).map Exchange.line? =
        (world.input.takeWhile fun line => !isFarewell line).map some ++
          [(world.input.dropWhile fun line => !isFarewell line).head?] ∧
      ∀ exchange ∈ exchanges {} start world.input,
        (∃ shown, showOutcome exchange.reply = .ok shown ∧
          exchange.text =
            (match exchange.before.session.mode with
              | .degrees => "[DEG] > "
              | .radians => "[RAD] > ") ++ shown) ∧
        ∀ failure, exchange.reply = .error failure →
          exchange.after.session.memory = exchange.before.session.memory ∧
          exchange.after.session.memorySet = exchange.before.session.memorySet ∧
          exchange.after.session.history = exchange.before.session.history ∧
          exchange.after.session.result = exchange.before.session.result ∧
          exchange.after.session.mode = exchange.before.session.mode := by
  obtain ⟨start, started, ready⟩ := exists_start mode enough
  have run : runInteractive {} world mode =
      { exit := .ok 0,
        output := greeting ++ String.join ((exchanges {} start world.input).map Exchange.text) } := by
    rw [runInteractive, started]
    simp only [transcript_eq ready]
    rfl
  refine ⟨start, started, by rw [run], by rw [run], lines_of_exchanges ready, ?_⟩
  rintro ⟨before, line?, reply, after⟩ held
  obtain ⟨shown, kept⟩ := harmless_of_mem ready held
  obtain ⟨text, printed⟩ := showOutcome_of_shown shown
  refine ⟨⟨text, printed, ?_⟩, ?_⟩
  · rw [text_of_shown printed, prompt_eq]
  · intro failure failed
    obtain ⟨expression, draws, same⟩ := kept failure failed
    dsimp only at same ⊢
    rw [same]
    exact ⟨rfl, rfl, rfl, rfl, rfl⟩

theorem stays_open_division :
    let world : World :=
      { tree := fun _ => none, input := ["1/0", ":rad", ":rand", "exit", "2"], draws := [0.5] }
    world.input.countP isDraw ≤ world.draws.length ∧
      (runInteractive {} world .degrees).exit = .ok 0 ∧
      (runInteractive {} world .degrees).output = "Enter an expression, a :command or 'quit'\n" ++
        "[DEG] > Error (DivisionByZero): Division by zero\n" ++
        "[DEG] > RAD\n" ++ "[RAD] > 0.5\n" ++ "[RAD] > " ∧
      ∃ start, Conversation.start {} .degrees world.draws = .ok start ∧
        (exchanges {} start world.input).map Exchange.line? =
          [some "1/0", some ":rad", some ":rand", some "exit"] ∧
        ∃ exchange ∈ exchanges {} start world.input, exchange.reply.isOk = false ∧
          exchange.after.session.memory = exchange.before.session.memory := by
  intro world
  have enough : world.input.countP isDraw ≤ world.draws.length := by decide +kernel
  obtain ⟨start, started, exit, output, lines, kept⟩ := stays_open world .degrees enough
  have read : (world.input.takeWhile fun line => !isFarewell line).map some ++
      [(world.input.dropWhile fun line => !isFarewell line).head?] =
        [some "1/0", some ":rad", some ":rand", some "exit"] := by decide +kernel
  have said : greeting ++ String.join ((exchanges {} start world.input).map Exchange.text) =
      "Enter an expression, a :command or 'quit'\n" ++
        "[DEG] > Error (DivisionByZero): Division by zero\n" ++
        "[DEG] > RAD\n" ++ "[RAD] > 0.5\n" ++ "[RAD] > " := by
    cases started
    decide +kernel
  refine ⟨enough, exit, output.trans said, start, started, lines.trans read, ?_⟩
  have fails : (exchanges {} start world.input).any fun exchange => !exchange.reply.isOk := by
    cases started
    decide +kernel
  obtain ⟨exchange, held, failed⟩ := List.any_eq_true.mp fails
  rw [Bool.not_eq_true'] at failed
  refine ⟨exchange, held, failed, ?_⟩
  cases replied : exchange.reply with
  | ok reply => rw [replied] at failed; cases failed
  | error failure => exact ((kept exchange held).2 failure replied).1

end Reckon.Proofs.OpenConversation
