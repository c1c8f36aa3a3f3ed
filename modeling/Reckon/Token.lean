import Reckon.Lexeme

/-! Tokens as an operator table describes them. A table may hold operators that no
expression can spell; a lexeme is described by its own entry. -/

namespace Reckon

namespace Token

inductive Kind where
  | number
  | operator
  | function
  | opening
  | closing
deriving DecidableEq, Repr

def Kind.name : Kind → String
  | number => "number"
  | operator => "operator"
  | function => "function"
  | opening => "lparen"
  | closing => "rparen"

/-- Where an operator stands with respect to its operands. -/
inductive Fixity where
  | between
  | before
  | after
deriving DecidableEq, Repr

def Fixity.name : Fixity → String
  | between => "infix"
  | before => "prefix"
  | after => "postfix"

end Token

structure Token where
  kind : Token.Kind
  name : String
  /-- Only a number has one. -/
  value : Datum := .missing
  arity : Int := 0
  precedence : Rat := 0
  fixity : Token.Fixity := .between
  /-- The name of the operation to carry out. -/
  operation : Option String := none

namespace Token

def ofNumber (value : Float) : Token :=
  { kind := .number, name := "number", value := .real value }

/-- The entry of the table for a lexeme. -/
def ofLexeme (lexeme : Lexeme) : Token :=
  match lexeme with
  | .number value => ofNumber value
  | .opening => { kind := .opening, name := lexeme.name }
  | .closing => { kind := .closing, name := lexeme.name }
  | .binary operator =>
    { kind := .operator, name := lexeme.name, arity := 2, precedence := operator.level,
      operation := some (Operation.binary operator).name }
  | .negate =>
    { kind := .operator, name := lexeme.name, arity := 1, precedence := signLevel,
      fixity := .before, operation := some Operation.negate.name }
  | .percent =>
    { kind := .operator, name := lexeme.name, arity := 1, precedence := 5, fixity := .after,
      operation := some Operation.percent.name }
  | .function f =>
    { kind := .function, name := lexeme.name, arity := 1, fixity := .before,
      operation := some (Operation.function f).name }

/-- Tokens are the same when kind, name and value are. -/
def same (first second : Token) : Bool :=
  first.kind == second.kind && first.name == second.name && first.value.same second.value

def described (token : Token) : Except Failure String :=
  match token.kind with
  | .number => (fun shown => s!"Token(number, {shown})") <$> token.value.described
  | kind => .ok s!"Token({kind.name}, {Text.quoted token.name})"

/-- The kind decides for numbers and functions, then the fixity, then the kind again. -/
def role (token : Token) : Polish.Role :=
  match token.kind, token.fixity with
  | .number, _ => .operand
  | .function, _ => .function
  | _, .after => .operand
  | .operator, .before => .leading token.precedence
  | .operator, .between => .binary token.precedence
  | .opening, _ => .opening
  | .closing, .before => .idle
  | .closing, .between => .closing

/-- Whether the unit of angles is passed on is decided by the name of the token. -/
def angleArgument (mode : AngleMode) (token : Token) : Option AngleMode :=
  if (Function.named? token.name).any Function.usesAngle then some mode else none

/-- What to do for an operator or a function whose operation is named. -/
def operationAction (mode : AngleMode) (token : Token) (operation : Operation) : Machine.Action :=
  if token.arity = 2 then
    .binary token.name fun left right => operation.call none [.real left, .real right]
  else if token.arity = 1 then
    .unary token.name fun x => operation.call (token.angleArgument mode) [.real x]
  else .refuse (.ofCause (.unsupportedOperator token.name))

def action (mode : AngleMode) (token : Token) : Machine.Action :=
  match token.kind with
  | .number => .push token.value.toNumber
  | .opening | .closing => .refuse (.ofCause (.unexpectedToken token.name))
  | .operator | .function =>
    match token.operation with
    | none => .refuse .wrongType
    | some name =>
      match Operation.named? name with
      | none => .refuse (.ofCause (.unknownOperator token.name))
      | some operation => token.operationAction mode operation

/-- The tokens in the order in which they act. When that order is reported, the numbers have to
be written. -/
def reorder (tokens : List Token) : Except Failure (List Token) := do
  let ordered ← liftCause (Polish.reorder role tokens)
  let _ ← ordered.mapM described
  return ordered

theorem role_ofLexeme (lexeme : Lexeme) : (ofLexeme lexeme).role = lexeme.role := by
  cases lexeme <;> rfl

/-- The entry of the table for a lexeme does what the lexeme does. -/
theorem action_ofLexeme (mode : AngleMode) (lexeme : Lexeme) :
    (ofLexeme lexeme).action mode = lexeme.action mode := by
  cases lexeme with
  | number | opening | closing | negate | percent => rfl
  | binary operator =>
    have computed (left right : Float) := operator.applyGiven_real left right
    cases operator <;>
      exact congrArg (Machine.Action.binary _)
        (funext fun left => funext fun right => computed left right)
  | function f =>
    have computed (x : Float) := f.applyGiven_real mode x
    cases f <;> exact congrArg (Machine.Action.unary _) (funext computed)

end Token

end Reckon
