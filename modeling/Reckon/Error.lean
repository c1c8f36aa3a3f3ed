import Reckon.Function
import Reckon.Numeral
import Reckon.Text.Quoted

/-! What can go wrong. An evaluation fails for a cause, every cause belongs to one of
five kinds, and each cause has its words. -/

namespace Reckon

inductive Kind where
  | malformedExpression
  | mismatchedParentheses
  | invalidExpression
  | divisionByZero
  | domainError
deriving DecidableEq, Repr

namespace Kind

def all : List Kind :=
  [malformedExpression, mismatchedParentheses, invalidExpression, divisionByZero, domainError]

def name : Kind → String
  | malformedExpression => "MalformedExpression"
  | mismatchedParentheses => "MismatchedParentheses"
  | invalidExpression => "InvalidExpression"
  | divisionByZero => "DivisionByZero"
  | domainError => "DomainError"

/-- What an error says when nothing more is known than its kind, if that. -/
def defaultMessage : Option Kind → String
  | some kind => kind.name
  | none => "Evaluation error"

end Kind

inductive Cause where
  | unbalanced
  | tooLong (limit : String)
  | unmatchedOpening
  | unmatchedClosing
  | malformedNumeral (text : String)
  | danglingMinus (position : Nat)
  | trailingMinus
  | unknownFunction (name : String)
  | missingArgument (name : String)
  | unexpectedCharacter (char : Char) (position : Nat)
  | unexpectedToken (name : String)
  | unknownOperator (name : String)
  | unsupportedOperator (name : String)
  | missingOperands (name : String)
  | surplusValues (count : Nat)
  | trailingOperator
  | emptyParentheses
  | unwritable (value : Float)
  | divisionByZero
  | inverseOfZero
  /-- The operand is shown as it was given. -/
  | outsideDomain (function : Function) (operand : String)
  | factorialOfFraction (operand : Float)
  | factorialOutOfRange (least greatest : String)
  | hypotenuseOfNonPositive (leg : Float)
deriving DecidableEq, Repr

namespace Cause

def kind : Cause → Kind
  | unbalanced => .malformedExpression
  | unmatchedOpening | unmatchedClosing => .mismatchedParentheses
  | divisionByZero | inverseOfZero => .divisionByZero
  | outsideDomain .. | factorialOfFraction _ | factorialOutOfRange .. |
      hypotenuseOfNonPositive _ => .domainError
  | _ => .invalidExpression

def domainMessage (function : Function) (operand : String) : String :=
  match function with
  | .asin | .acos => s!"{function.name} input must be between -1 and 1, got {operand}"
  | .sqrt => s!"Cannot calculate square root of negative number {operand}"
  | _ => s!"{function.name} input must be positive, got {operand}"

def message : Cause → String
  | unbalanced => "Unbalanced parentheses"
  | tooLong limit => s!"Expression longer than {limit} characters"
  | unmatchedOpening => "Mismatched parentheses: unmatched '('"
  | unmatchedClosing => "Mismatched parentheses: unmatched ')'"
  | malformedNumeral text => s!"Invalid number literal: '{text}'"
  | danglingMinus position => s!"Dangling unary minus at position {position}"
  | trailingMinus => "Expression ends with a unary minus"
  | unknownFunction name => s!"Unknown function: '{name}'"
  | missingArgument name => s!"Function '{name}' must be followed by '('"
  | unexpectedCharacter char position => s!"Unexpected character '{char}' at position {position}"
  | unexpectedToken name => s!"Unexpected token '{name}'"
  | unknownOperator name => s!"Unknown operator '{name}'"
  | unsupportedOperator name => s!"Unsupported operator '{name}'"
  | missingOperands name => s!"Insufficient operands for '{name}'"
  | surplusValues count => s!"Invalid expression: {count} values left on the stack"
  | trailingOperator => "Invalid expression: trailing operator"
  | emptyParentheses => "Invalid expression: empty parentheses"
  | unwritable value => s!"Cannot write non-finite value {exact value} back into the expression"
  | divisionByZero => "Division by zero"
  | inverseOfZero => "Cannot calculate inverse of zero"
  | outsideDomain function operand => domainMessage function operand
  | factorialOfFraction operand => s!"Factorial requires an integer, got {exact operand}"
  | factorialOutOfRange least greatest =>
    s!"Invalid input for factorial ({least}-{greatest} only)"
  | hypotenuseOfNonPositive leg => s!"Invalid input for hypotenuse: {exact leg}"

end Cause

/-- What is wrong with the settings of a calculator. -/
inductive Fault where
  | decimals
  | cacheSize
  | maxLength
  | historySize
  | factorialRange
deriving DecidableEq, Repr

def Fault.message : Fault → String
  | .decimals => "结果必须保留8位小数"
  | .cacheSize => "缓存大小不能为负"
  | .maxLength => "表达式最大长度必须为正"
  | .historySize => "历史记录至少保留1条"
  | .factorialRange => "阶乘范围无效"

/-- A name or a text that stands for nothing, or a number that is not taken. -/
inductive Refusal where
  | unknownQuickFunction (name : String)
  | unknownConstant (name : String)
  | unknownCommand (line : String)
  | unreadableNumber (text : String)
  | negativeHistory
  | missingColumn (column : String)
  | nullInPath
  | tooManyDigits
deriving DecidableEq, Repr

def Refusal.message : Refusal → String
  | unknownQuickFunction name => s!"Unknown scientific function: {name}"
  | unknownConstant name => s!"Unknown constant: {name}"
  | unknownCommand line => s!"Unknown command: {line}"
  | unreadableNumber text => s!"could not convert string to float: {Text.quoted text}"
  | negativeHistory => "maxlen must be non-negative"
  | missingColumn column => s!"Expression column '{column}' not found in dataset."
  | nullInPath => "embedded null byte"
  | tooManyDigits =>
    "Exceeds the limit (4300 digits) for integer string conversion; " ++
      "use sys.set_int_max_str_digits() to increase the limit"

inductive Failure where
  /-- The expression that was evaluated is recorded once it is known. -/
  | evaluation (cause : Cause) (expression : Option String)
  | refused (refusal : Refusal)
  | misconfigured (fault : Fault)
  /-- A number beyond the largest double where no infinity may stand for it. -/
  | overflow
  /-- A value of the wrong type, or a wrong count of arguments. -/
  | wrongType
  | noRandomNumber
  | missingFile
  /-- A path goes on behind a file, or demands a directory where a file is. -/
  | notDirectory
  | isDirectory
  /-- A path that cannot lead to a file for some other reason. -/
  | unusablePath
  | emptyTable
  | brokenTable
deriving DecidableEq, Repr

namespace Failure

/-- A failure inside a computation, before it is known whose expression it was. -/
def ofCause (cause : Cause) : Failure :=
  .evaluation cause none

/-- Records the expression that was evaluated. -/
def inExpression (expression : String) : Failure → Failure
  | .evaluation cause _ => .evaluation cause (some expression)
  | other => other

end Failure

/-- Takes a computation that can only fail for a cause among those that can fail. -/
def liftCause (outcome : Except Cause α) : Except Failure α :=
  outcome.mapError Failure.ofCause

end Reckon
