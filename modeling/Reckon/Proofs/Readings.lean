import Reckon.Grammar

/-! Every sentence has a reading. Joining one more operand to a row that was read
re-associates only its right edge, as deep as the new operator binds. -/

namespace Reckon.Proofs.Readings
open Grammar

variable {items others : List Lexeme} {left right : Expr}

/-- What may stand behind an operator: signs, then an atom with its percent signs. Behind
a power the first sign decides what the power takes. -/
inductive Operand (others : List Lexeme) : Prop
  | plain (tree : Expr) (reading : Reads .suffixed others tree)
  | signed (rest : List Lexeme) (tree : Expr) (sign : others = .negate :: rest)
      (reading : Reads .signed rest tree)

theorem Operand.reading (operand : Operand others) : ∃ tree, Reads .signed others tree := by
  cases operand with
  | plain tree reading => exact ⟨tree, .unsigned (.base reading)⟩
  | signed rest tree sign reading =>
    subst sign
    exact ⟨_, .negate reading⟩

private theorem signed_power (reading : Reads .signed items left) (operand : Operand others) :
    ∃ tree, Reads .signed (items ++ .binary .power :: others) tree := by
  generalize sign : Layer.signed = layer at reading
  induction reading with
  | unsigned chain =>
    cases operand with
    | plain tree exponent => exact ⟨_, .unsigned (.power chain exponent)⟩
    | signed rest tree sign exponent =>
      subst sign
      exact ⟨_, .powerNegate chain exponent⟩
  | negate inner ih =>
    obtain ⟨tree, joined⟩ := ih sign
    exact ⟨_, .negate joined⟩
  | powerNegate chain exponent _ ih =>
    obtain ⟨tree, joined⟩ := ih sign
    exact ⟨_, by simpa using Reads.powerNegate chain joined⟩
  | _ => cases sign

private theorem product_power (reading : Reads .product items left) (operand : Operand others) :
    ∃ tree, Reads .product (items ++ .binary .power :: others) tree := by
  cases reading with
  | factor inner =>
    obtain ⟨tree, joined⟩ := signed_power inner operand
    exact ⟨tree, .factor joined⟩
  | product operator level first second =>
    obtain ⟨tree, joined⟩ := signed_power second operand
    exact ⟨_, by simpa using Reads.product operator level first joined⟩

private theorem sum_power (reading : Reads .sum items left) (operand : Operand others) :
    ∃ tree, Reads .sum (items ++ .binary .power :: others) tree := by
  cases reading with
  | term inner =>
    obtain ⟨tree, joined⟩ := product_power inner operand
    exact ⟨tree, .term joined⟩
  | sum operator level first second =>
    obtain ⟨tree, joined⟩ := product_power second operand
    exact ⟨_, by simpa using Reads.sum operator level first joined⟩

private theorem sum_product (reading : Reads .sum items left) (operator : BinaryOp)
    (level : operator.level = 2) (factor : Reads .signed others right) :
    ∃ tree, Reads .sum (items ++ .binary operator :: others) tree := by
  cases reading with
  | term inner => exact ⟨_, .term (.product operator level inner factor)⟩
  | sum first plus head tail =>
    exact ⟨_, by simpa using Reads.sum first plus head (.product operator level tail factor)⟩

/-- One more operand can be joined to a row that was read, whatever the operator. -/
theorem sum_join (reading : Reads .sum items left) (operator : BinaryOp)
    (operand : Operand others) : ∃ tree, Reads .sum (items ++ .binary operator :: others) tree := by
  obtain ⟨tree, signed⟩ := operand.reading
  cases operator with
  | add => exact ⟨_, .sum .add rfl reading (.factor signed)⟩
  | subtract => exact ⟨_, .sum .subtract rfl reading (.factor signed)⟩
  | multiply => exact sum_product reading .multiply rfl signed
  | divide => exact sum_product reading .divide rfl signed
  | power => exact sum_power reading operand

def Readable : Part → List Lexeme → Prop
  | .atom, items => ∃ tree, Reads .atom items tree
  | .suffixed, items => ∃ tree, Reads .suffixed items tree
  | .operand, items => Operand items
  | .sentence, items => ∃ tree, Reads .sum items tree

private theorem readable {part : Part} (derived : Derives part items) : Readable part items := by
  induction derived with
  | number value => exact ⟨_, .number value⟩
  | group _ ih =>
    obtain ⟨tree, inside⟩ := ih
    exact ⟨tree, .group inside⟩
  | call f _ ih =>
    obtain ⟨tree, inside⟩ := ih
    exact ⟨_, .call f inside⟩
  | bare _ ih =>
    obtain ⟨tree, atom⟩ := ih
    exact ⟨tree, .bare atom⟩
  | percent _ ih =>
    obtain ⟨tree, inner⟩ := ih
    exact ⟨_, .percent inner⟩
  | unsigned _ ih =>
    obtain ⟨tree, inner⟩ := ih
    exact .plain tree inner
  | negate _ ih =>
    obtain ⟨tree, inner⟩ := Operand.reading ih
    exact .signed _ tree rfl inner
  | single _ ih =>
    obtain ⟨tree, operand⟩ := Operand.reading ih
    exact ⟨tree, .term (.factor operand)⟩
  | join operator _ _ first second =>
    obtain ⟨tree, row⟩ := first
    exact sum_join row operator second

theorem exists_reading (sentence : IsSentence items) : ∃ tree, Reads .sum items tree :=
  readable sentence

end Reckon.Proofs.Readings
