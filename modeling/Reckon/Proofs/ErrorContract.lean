import Reckon.Proofs.KeptParentheses

/-! What an evaluation can fail with. The reader finds nothing but invalid expressions, the
machine adds the failures of its operations, and a balanced text is never found unbalanced
later on. -/

namespace Reckon.Proofs.ErrorContract
open Entry Lexer Polish SentenceShape KeptParentheses

def FailsOnly {ε α : Type} (allowed : ε → Prop) (outcome : Except ε α) : Prop :=
  ∀ failure, outcome = .error failure → allowed failure

section Outcomes

variable {ε α β : Type} {allowed other : ε → Prop} {outcome : Except ε α}

theorem FailsOnly.ok (value : α) : FailsOnly allowed (.ok value) :=
  fun _ failed => nomatch failed

theorem FailsOnly.error {failure : ε} (known : allowed failure) :
    FailsOnly allowed (.error failure : Except ε α) := by
  rintro _ ⟨⟩
  exact known

theorem FailsOnly.bind {next : α → Except ε β} (first : FailsOnly allowed outcome)
    (later : ∀ value, outcome = .ok value → FailsOnly allowed (next value)) :
    FailsOnly allowed (outcome >>= next) := by
  cases outcome with
  | error failure => exact .error (first failure rfl)
  | ok value => exact later value rfl

theorem FailsOnly.map {f : α → β} (first : FailsOnly allowed outcome) :
    FailsOnly allowed (f <$> outcome) := by
  cases outcome with
  | error failure => exact .error (first failure rfl)
  | ok value => exact .ok (f value)

end Outcomes

def Invalid (cause : Cause) : Prop :=
  cause.kind = .invalidExpression

def kinds : List Kind :=
  [.malformedExpression, .invalidExpression, .divisionByZero, .domainError]

/-- A failure of the computation, whose expression is still to be recorded. -/
def Unrecorded (failure : Failure) : Prop :=
  ∃ cause, failure = .ofCause cause ∧ cause.kind ∈ kinds

variable {before : Option Char} {position : Nat} {pending : Pending} {text : List Char}
  {mode : AngleMode} {item : Lexeme}

private theorem settle_failsOnly (next? : Option Char) : FailsOnly Invalid (settle pending next? position) := by
  cases pending with
  | nothing => exact .ok _
  | numeral negative digits =>
    simp only [settle, numeral]
    split
    · exact .ok _
    · exact .error rfl
  | word letters =>
    simp only [settle, word]
    split
    · exact .error rfl
    · split
      · exact .ok _
      · exact .error rfl
  | sign =>
    simp only [settle]
    split
    · exact .error rfl
    · split
      · exact .ok _
      · exact .error rfl

private theorem start_failsOnly (char : Char) : FailsOnly Invalid (start before char position) := by
  unfold start
  split
  · exact .ok _
  · split
    · exact .ok _
    · split
      · exact .ok _
      · exact .error rfl

theorem lexFrom_failsOnly : FailsOnly Invalid (lexFrom before position pending text) := by
  induction text generalizing before position pending with
  | nil => exact settle_failsOnly none
  | cons char rest ih =>
    rw [lexFrom]
    split
    · exact ih
    · refine (settle_failsOnly _).bind fun settled _ => (start_failsOnly char).bind fun _ _ => ?_
      exact ih.bind fun others _ => .ok _

private theorem liftCause_failsOnly {α : Type} {allowed : Cause → Prop} {outcome : Except Cause α}
    (fails : FailsOnly allowed outcome) (known : ∀ cause, allowed cause → cause.kind ∈ kinds) :
    FailsOnly Unrecorded (liftCause outcome) := by
  cases outcome with
  | ok value => exact .ok value
  | error cause => exact .error ⟨cause, rfl, known cause (fails cause rfl)⟩

theorem operator_failsOnly (operator : BinaryOp) (left right : Float) :
    FailsOnly (· = .divisionByZero) (operator.apply left right) := by
  unfold BinaryOp.apply
  split
  · exact .error rfl
  · exact .ok _

theorem function_failsOnly (f : Function) (x : Float) :
    FailsOnly (· = .outsideDomain f (exact x)) (f.apply mode x) := by
  unfold Function.apply
  split
  · exact .error rfl
  · exact .ok _

private theorem step_failsOnly (item : Lexeme) (stack : List Float) :
    FailsOnly Unrecorded (Machine.step stack (item.action mode)) := by
  have missing (name : String) : Unrecorded (.ofCause (.missingOperands name)) :=
    ⟨_, rfl, by simp [Cause.kind, kinds]⟩
  cases item with
  | number value => cases stack <;> exact .ok _
  | opening | closing => cases stack <;> exact .error ⟨_, rfl, by decide⟩
  | negate | percent =>
    cases stack with
    | nil => exact .error (missing _)
    | cons operand rest => exact .ok _
  | binary operator =>
    match stack with
    | [] | [_] => exact .error (missing _)
    | right :: left :: rest =>
      refine (liftCause_failsOnly (operator_failsOnly operator left right) ?_).map
      rintro _ rfl
      decide
  | function f =>
    cases stack with
    | nil => exact .error (missing _)
    | cons operand rest =>
      refine (liftCause_failsOnly (function_failsOnly f operand) ?_).map
      rintro _ rfl
      simp [Cause.kind, kinds]

private theorem runFrom_failsOnly (items : List Lexeme) (stack : List Float) :
    FailsOnly Unrecorded (Machine.runFrom (Lexeme.action mode) stack items) := by
  induction items generalizing stack with
  | nil => exact .ok stack
  | cons item rest ih =>
    rw [Machine.runFrom_cons]
    exact (step_failsOnly item stack).bind fun next _ => ih next

theorem run_failsOnly (items : List Lexeme) :
    FailsOnly Unrecorded (Machine.run (Lexeme.action mode) items) := by
  refine (runFrom_failsOnly items []).bind fun stack _ => ?_
  match stack with
  | [value] => exact .ok value
  | [] | _ :: _ :: _ => exact .error ⟨_, rfl, by simp [Cause.kind, kinds]⟩

private theorem compute_failsOnly (balanced : isBalanced text = true) :
    FailsOnly Unrecorded (compute mode text) := by
  have read : FailsOnly Unrecorded (liftCause (lex (normalize text))) :=
    liftCause_failsOnly lexFrom_failsOnly fun cause invalid => by
      rw [show cause.kind = .invalidExpression from invalid]
      decide
  refine read.bind fun items found => ?_
  have nested := nested_of_isBalanced balanced (liftCause_ok found)
  obtain ⟨ordered, arranged⟩ := @arrange_of_nested items [] nested
  rw [reorder, arranged]
  exact run_failsOnly ordered

private theorem entered_cases (text? : Option String) :
    enteredText text? = "0" ∨ ∃ text, text? = some text ∧ enteredText text? = text := by
  cases text? with
  | none => exact .inl rfl
  | some text =>
    rw [enteredText]
    split
    · exact .inl rfl
    · exact .inr ⟨text, rfl, rfl⟩

private theorem evaluate_zero (mode : AngleMode) (text? : Option String)
    (zero : enteredText text? = "0") : ∃ value, evaluate {} mode text? = .ok value := by
  have computed : (evaluate {} mode (some "0")).toOption.isSome = true := by
    cases mode <;> decide +kernel
  have same : evaluate {} mode text? = evaluate {} mode (some "0") := by
    have zero' : enteredText (some "0") = "0" := by decide
    simp only [evaluate, zero, zero']
  rw [same]
  generalize evaluate {} mode (some "0") = outcome at computed
  cases outcome with
  | ok value => exact ⟨value, rfl⟩
  | error failure => cases computed

/-- Settings with which an evaluation has only the failures of its expression: results can be
rounded, lengths compared with the limit, and the limit shown. -/
structure Usable (config : Config) : Prop where
  scale : ∃ scale, decimalScale config.roundDecimals = .ok scale
  limit : ∀ length : Nat, (config.maxLength.below? (.integer length)).isSome = true
  writable : config.maxLength.Writable

theorem usable_default : Usable {} :=
  ⟨⟨Decimal.toFloat ⟨1, 8⟩, rfl⟩, fun _ => rfl, by decide +kernel⟩

/-- Every failure records the text it is about. -/
theorem Usable.failsOnly {config : Config} (usable : Usable config) (mode : AngleMode)
    (text? : Option String) :
    FailsOnly (fun failure => ∃ cause, failure = .evaluation cause (some (enteredText text?)) ∧
      cause.kind ∈ kinds) (evaluate config mode text?) := by
  have limit := usable.limit (enteredText text?).length
  obtain ⟨scale, scaled⟩ := usable.scale
  obtain ⟨shown, written⟩ := Datum.exists_plain usable.writable
  rw [evaluate]
  split
  case h_1 unknown =>
    rw [unknown] at limit
    cases limit
  case h_2 =>
    rw [written]
    exact .error ⟨_, rfl, by simp [Cause.kind, kinds]⟩
  case h_3 =>
    cases balanced : isBalanced (enteredText text?).toList with
    | false => exact .error ⟨_, rfl, by decide⟩
    | true =>
      have fails := @compute_failsOnly _ mode balanced
      rw [Bool.not_true, if_neg Bool.false_ne_true, scaled]
      cases outcome : compute mode (enteredText text?).toList with
      | ok value => exact .ok _
      | error failure =>
        obtain ⟨cause, rfl, known⟩ := fails failure outcome
        exact .error ⟨cause, rfl, known⟩

theorem evaluate_failsOnly (mode : AngleMode) (text? : Option String) :
    FailsOnly (fun failure => ∃ cause, failure = .evaluation cause (some (enteredText text?)) ∧
      cause.kind ∈ kinds) (evaluate {} mode text?) :=
  usable_default.failsOnly mode text?

/-- Every text has a value or fails for a cause of one of four kinds, and the failure names
the text as it was entered. Parentheses that match in the text match among the lexemes, so
the fifth kind, that of mismatched parentheses, never comes up. -/
theorem value_or_recorded_cause (mode : AngleMode) (text? : Option String) :
    ((∃ value, evaluate {} mode text? = .ok value) ∨
      ∃ text cause, text? = some text ∧
        evaluate {} mode text? = .error (.evaluation cause (some text)) ∧
        cause.kind ∈ [.malformedExpression, .invalidExpression, .divisionByZero, .domainError]) ∧
      ∀ items, isBalanced (enteredText text?).toList = true →
        lex (normalize (enteredText text?).toList) = .ok items → Nested 0 items := by
  refine ⟨?_, fun items balanced read => nested_of_isBalanced balanced read⟩
  rcases entered_cases text? with zero | ⟨text, rfl, entered⟩
  · exact .inl (evaluate_zero mode text? zero)
  · cases outcome : evaluate {} mode (some text) with
    | ok value => exact .inl ⟨value, rfl⟩
    | error failure =>
      obtain ⟨cause, rfl, known⟩ := evaluate_failsOnly mode (some text) failure outcome
      exact .inr ⟨text, cause, rfl, by rw [entered], known⟩

theorem value_or_recorded_cause_constant :
    isBalanced "2(()π)".toList = true ∧ ∃ items,
      lex (normalize "2(()π)".toList) = .ok items ∧ items.length = 11 ∧ Nested 0 items := by
  have balanced : isBalanced "2(()π)".toList = true := by decide
  have count : (lex (normalize "2(()π)".toList)).toOption.map List.length = some 11 := by
    decide +kernel
  refine ⟨balanced, ?_⟩
  cases read : lex (normalize "2(()π)".toList) with
  | error cause =>
    rw [read] at count
    cases count
  | ok items =>
    rw [read] at count
    have nested := (value_or_recorded_cause .degrees (some "2(()π)")).2 items balanced read
    exact ⟨items, rfl, Option.some.inj count, nested⟩

end Reckon.Proofs.ErrorContract
