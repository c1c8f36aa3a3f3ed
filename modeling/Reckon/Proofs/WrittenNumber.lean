import Reckon.Proofs.NumeralText
import Reckon.Proofs.ReadText
import Reckon.Proofs.SessionEffects
import Reckon.Proofs.SharedEvaluator

/-! A number that is put on display. It stands there as a literal, and the value of a literal
is the number itself, rounded, so that a session goes on with what it has written. -/

namespace Reckon.Proofs.WrittenNumber
open Entry Lexer Grammar LiteralReading NumeralText ReadText Session SessionEffects
open SharedEvaluator Transparency

variable {digits : List Char} {x value : Float} {mode : AngleMode} {negative : Bool}

private theorem lex_signed (literal : IsLiteral digits value) :
    lex (signedText negative digits) = .ok [.number (if negative then -value else value)] := by
  obtain ⟨last, steps⟩ := @lexFrom_numeral none digits negative 0 [] literal.filled literal.chars
    fun _ => rfl
  rw [List.append_nil] at steps
  rw [lex, steps, lexFrom, settle, literal.numeral]

private theorem lex_literalText (finite : x.isFinite = true) : lex (literalText x) = .ok [.number x] := by
  obtain ⟨digits, size, written, literal, back⟩ := literalText_signed finite
  rw [written, lex_signed literal, back]

/-- The settings as they come have room for every literal, and for a few signs around it. -/
theorem length_fits {text : List Char} (short : text.length ≤ 400) :
    ({} : Config).maxLength.below? (.integer text.length) = some false := by
  have limit : ({} : Config).maxLength = .integer 1000 := rfl
  rw [limit, Datum.below?_integer, decide_eq_false (by omega)]

theorem decimalScale_default : decimalScale ({} : Config).roundDecimals = .ok resultScale := by
  have scale : Decimal.toFloat ⟨1, 8⟩ = resultScale := by decide +kernel
  rw [← scale]
  rfl

theorem reads_literal (x : Float) : Reads .sum [.number x] (.literal x) :=
  .term (.factor (.unsigned (.base (.bare (.number x)))))

theorem evaluate_signed (literal : IsLiteral digits value)
    (short : (signedText negative digits).length ≤ 400) (mode : AngleMode) :
    evaluate {} mode (some (String.ofList (signedText negative digits))) =
      .ok (roundTo resultScale (if negative then -value else value)) := by
  have chars := mem_signedText negative literal.chars
  have level : Level (signedText negative digits) :=
    level_of_plain fun char inside => (settled_numerals char (chars char inside)).plain.2
  obtain ⟨first, others, filled⟩ :=
    List.exists_cons_of_ne_nil (@signedText_ne_nil digits negative literal.filled)
  have member : first ∈ signedText negative digits := by simp [filled]
  have visible := (settled_numerals first (chars first member)).kept.visible
  have read := @lex_signed _ _ negative literal
  rw [← normalize_numerals chars] at read
  rw [evaluate_of_reads (length_fits short) member visible (level 0) read (reads_literal _), Expr.value,
    answer, decimalScale_default]
  rfl

private theorem evaluate_literal (finite : x.isFinite = true) (mode : AngleMode) :
    evaluate {} mode (some (literal x)) = .ok (roundTo resultScale x) := by
  have short := (length_literalText_le finite).trans (by decide : 361 ≤ 400)
  obtain ⟨digits, size, written, reads, back⟩ := literalText_signed finite
  rw [written] at short
  rw [literal, written, evaluate_signed reads short, back]

inductive Writes : Request → Prop
  | apply (name : String) : Writes (.apply name)
  | constant (name : String) : Writes (.constant name)
  | random : Writes .random
  | memory : Writes (.memory .recall)

/-- A number is on display, and nothing was calculated from it yet. -/
structure Displays (value : Float) (session : Session) : Prop where
  finite : value.isFinite = true
  expression : session.expression = literal value
  result : session.result = none

variable {config : Config} {session after : Session} {evaluator : Evaluator} {request : Request}

theorem displays_of_write? (written : session.write? value = .ok after) :
    Displays value after := by
  unfold write? at written
  split at written
  case isTrue finite =>
    cases written
    exact ⟨finite, rfl, rfl⟩
  case isFalse => cases written

theorem Displays.record (displays : Displays value session) (entry : String) :
    Displays value (session.record entry) := by
  obtain ⟨finite, expression, result⟩ := displays
  obtain ⟨history, recorded⟩ := exists_record session entry
  rw [recorded]
  exact ⟨finite, expression, result⟩

def ShowsReply (outcome : Outcome) : Prop :=
  ∀ value, outcome.reply = .ok (.number value) → Displays value outcome.session

theorem ShowsReply.failed (failure : Failure) (session : Session) (evaluator : Evaluator) :
    ShowsReply ⟨.error failure, session, evaluator⟩ :=
  fun _ replied => nomatch replied

private theorem showsReply_enter (session : Session) (evaluator : Evaluator) (shown : Float) (entry : String) :
    ShowsReply (session.enter evaluator shown entry) := by
  unfold enter
  split
  · exact .failed _ session evaluator
  · rename_i written
    rintro _ ⟨⟩
    exact (displays_of_write? written).record entry

private theorem showsReply_memoryRecall (session : Session) (evaluator : Evaluator) :
    ShowsReply (session.memoryRecall evaluator) := by
  unfold memoryRecall
  split
  · rintro _ ⟨⟩
  split
  · exact .failed _ session evaluator
  split
  · exact .failed _ session evaluator
  · rename_i written
    rintro _ ⟨⟩
    exact displays_of_write? written

private theorem showsReply_perform (writes : Writes request) (session : Session) (evaluator : Evaluator) :
    ShowsReply (session.perform config request evaluator) := by
  cases writes with
  | apply name =>
    rw [perform, Session.apply]
    split
    · exact .failed _ session _
    split
    · exact .failed _ session _
    · exact showsReply_enter session _ _ _
  | constant name =>
    rw [perform, insertConstant]
    split
    · exact .failed _ session evaluator
    · exact showsReply_enter session evaluator _ _
  | random =>
    rw [perform, Session.random]
    split
    · exact .failed _ session evaluator
    · exact showsReply_enter _ evaluator _ _
  | memory => exact showsReply_memoryRecall session evaluator

theorem Displays.currentValue (displays : Displays value session)
    (sound : Sound {} mode evaluator) :
    (session.currentValue {} evaluator).1 = .ok (roundTo resultScale value) := by
  rw [Session.currentValue, displays.result, displays.expression]
  exact (sound.evaluate_in _ _).trans (evaluate_literal displays.finite session.mode)

/-- The induction is on the requests. Whoever asks, the evaluator that the next one finds is
sound. -/
theorem performed_of_run {sessions : List Session} {requests : List (Nat × Request)} {place who : Nat}
    {outcome : Outcome} (sound : Sound config mode evaluator)
    (asked : requests[place]? = some (who, request))
    (reached : ((Desk.shared sessions evaluator).run config requests)[place]? = some (some outcome)) :
    ∃ (session : Session) (before : Evaluator), Sound config mode before ∧
      session.perform config request before = outcome := by
  induction requests generalizing sessions evaluator place with
  | nil => cases asked
  | cons first rest ih =>
    obtain ⟨seat, wanted⟩ := first
    rw [Desk.run, Desk.perform] at reached
    cases found : sessions[seat]? with
    | none =>
      rw [found] at reached
      cases place with
      | zero => cases reached
      | succ place => exact ih sound asked reached
    | some session =>
      rw [found] at reached
      cases place with
      | zero =>
        cases asked
        cases reached
        exact ⟨session, evaluator, sound, rfl⟩
      | succ place =>
        exact ih (perform_alike sound sound wanted session).first asked reached

def number? : Reply → Option Float
  | .number value => some value
  | .nothing | .text _ => none

private theorem eq_of_number? {reply : Except Failure Reply} {value : Float}
    (given : reply.toOption.bind number? = some value) : reply = .ok (.number value) := by
  cases reply with
  | error failure => cases given
  | ok reply =>
    cases reply with
    | number _ =>
      cases given
      rfl
    | nothing | text _ => cases given

/-- The literal of a finite double passes unchanged to the reader, is read as that double and
evaluates to it, rounded. In whatever state sessions are and whatever is asked of them, a number
that has been put on display is from then on, rounded, the current value. -/
theorem literal_reads_back :
    (∀ x : Float, x.isFinite = true →
      normalize (literalText x) = literalText x ∧ lex (literalText x) = .ok [.number x] ∧
        ∀ mode, evaluate {} mode (some (literal x)) = .ok (roundTo resultScale x)) ∧
    ∀ (capacity? : Option Datum) (mode? : Option AngleMode) (sessions : List Session)
      (requests : List (Nat × Request)) (place who : Nat) (request : Request) (outcome : Outcome)
      (value : Float), IsWhole (capacity?.getD ({} : Config).cacheSize) →
      requests[place]? = some (who, request) → Writes request →
      ((Desk.shared sessions (Evaluator.new {} capacity? mode?)).run {} requests)[place]? =
        some (some outcome) →
      outcome.reply = .ok (.number value) →
      (outcome.session.currentValue {} outcome.evaluator).1 = .ok (roundTo resultScale value) := by
  constructor
  · intro x finite
    exact ⟨normalize_numerals (literalText_chars finite), lex_literalText finite,
      evaluate_literal finite⟩
  · intro capacity? mode? sessions requests place who request outcome value whole asked writes
      reached replied
    obtain ⟨session, before, sound, rfl⟩ := performed_of_run (sound_new whole) asked reached
    have after := (perform_alike sound sound request session).first
    exact (showsReply_perform writes session before value replied).currentValue after

theorem literal_reads_back_recalled :
    let session : Session := { memory := .real 0.0, mode := .degrees, historySize := some 3 }
    let requests : List (Nat × Request) :=
      [(0, .calculate (some "1/8")), (0, .memory .store), (0, .memory .recall)]
    literal (-0.0) = "-0" ∧ evaluate {} .degrees (some "-0") = .ok (roundTo resultScale (-0.0)) ∧
      ∃ outcome, ((Desk.shared [session] (Evaluator.new {} (some (.integer 0)) none)).run {}
          requests)[2]? = some (some outcome) ∧
        outcome.reply = .ok (.number 0.125) ∧
        (outcome.session.currentValue {} outcome.evaluator).1 =
          .ok (roundTo resultScale 0.125) := by
  intro session requests
  have text : literal (-0.0) = "-0" := by decide +kernel
  have evaluated := (literal_reads_back.1 (-0.0) (by decide +kernel)).2.2 .degrees
  have given : (((Desk.shared [session] (Evaluator.new {} (some (.integer 0)) none)).run {}
      requests)[2]?.join.bind fun outcome => outcome.reply.toOption.bind number?) =
        some 0.125 := by decide +kernel
  obtain ⟨outcome, joined, number⟩ := Option.bind_eq_some_iff.mp given
  have reached := Option.join_eq_some_iff.mp joined
  have replied : outcome.reply = .ok (.number 0.125) := eq_of_number? number
  exact ⟨text, text ▸ evaluated, outcome, reached, replied,
    literal_reads_back.2 (some (.integer 0)) none [session] requests 2 0 _ outcome 0.125 ⟨0, rfl⟩
      rfl .memory reached replied⟩

end Reckon.Proofs.WrittenNumber
