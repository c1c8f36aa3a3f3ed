import Reckon.Proofs.PowerFolding
import Reckon.Proofs.QuotientSign

/-! Reading percent signs. What a literal with its hundredth taken does on the machine is what
the literal in parentheses does with the sign behind it, also where a minus stands before it,
as long as nothing that binds tighter than the minus follows. -/

namespace Reckon.Proofs.PercentReading
open Lexer Polish Arranging ExchangedParts LiteralPlace LiteralPower NumeralText PowerFolding Precedence Scanning

variable {mode : AngleMode} {left numeral right : List Char} {items rest stack sent : List Lexeme}
  {negative : Bool} {value x : Float}

def groupRow (negative : Bool) (value : Float) : List Lexeme :=
  (if negative then [Lexeme.negate] else []) ++ [Lexeme.opening, .number value, .closing, .percent]

theorem readAs_group (literal : IsLiteral numeral value) (negative : Bool) :
    ReadAs left (begun negative) ('(' :: (numeral ++ [')', '%'])) right (groupRow negative value) := by
  have opening : symbol? '(' = some .opening := rfl
  have closing : symbol? ')' = some .closing := rfl
  have percent : symbol? '%' = some .percent := rfl
  have binary {char : Char} (other : char ≠ '-') {before : Option Char} :
      char = '-' → opensOperand before = false := fun same => absurd same other
  have stops : ∀ char ∈ (')' :: '%' :: right).head?, isNumeralChar char = false := by
    rintro _ ⟨⟩
    decide
  have group (before : Option Char) (position : Nat) :
      lexFrom before position .nothing ('(' :: (numeral ++ ')' :: '%' :: right)) =
        (groupRow false value ++ ·) <$>
          lexFrom (some '%') (position + 1 + numeral.length + 1 + 1) .nothing right := by
    have inside := @lexFrom_literal _ _ _ (some '(') (position + 1) literal false stops
    rw [lexFrom_symbol opening (binary (by decide))]
    show _ <$> lexFrom _ _ (begun false) _ = _
    rw [inside, lexFrom_symbol closing (binary (by decide)), lexFrom_symbol percent (binary (by decide))]
    cases lexFrom (some '%') _ .nothing right <;> rfl
  refine ⟨some '%', left.length + 1 + numeral.length + 1 + 1, rfl, ?_⟩
  have text : '(' :: (numeral ++ [')', '%']) ++ right = '(' :: (numeral ++ ')' :: '%' :: right) := by simp
  rw [text]
  cases negative with
  | false => exact group _ _
  | true =>
    show lexFrom _ _ .sign _ = _
    rw [lexFrom_negate (.inl rfl) (by decide), group]
    cases lexFrom (some '%') _ .nothing right <;> rfl

theorem behind_percents (count : Nat)
    (behind : Behind (List.replicate count '%' ++ right) rest) :
    ∃ others, rest = List.replicate count .percent ++ others ∧ Behind right others := by
  induction count generalizing rest with
  | zero => exact ⟨rest, rfl, behind⟩
  | succ count ih =>
    obtain ⟨beside, place, closed, read⟩ := behind
    have known : symbol? '%' = some .percent := rfl
    rw [List.replicate_succ, List.cons_append, lexFrom_symbol known fun same => absurd same (by decide)] at read
    obtain ⟨others, read', rfl⟩ := Lexer.map_ok read
    obtain ⟨others, rfl, behind⟩ := ih ⟨_, _, rfl, read'⟩
    exact ⟨others, rfl, behind⟩

private theorem leaves_percents (count : Nat) (leaves : Leaves 5 5 items sent []) :
    Leaves 5 5 (items ++ List.replicate count Lexeme.percent) (sent ++ List.replicate count Lexeme.percent) [] := by
  induction count with
  | zero => simpa using leaves
  | succ count ih =>
    rw [List.replicate_succ', ← List.append_assoc, ← List.append_assoc]
    exact ih.percent

private theorem leaves_group (x : Float) : Leaves 5 5 (groupRow false x) [.number x, .percent] [] := by
  have inside : Leaves 5 1 [.number x] [.number x] [] := (Leaves.number x).loosen Rat.le_refl (by decide)
  exact inside.group.percent

private theorem clear_of_awaits (awaits : ∀ top ∈ stack.head?, Awaits top) : Clear Lexeme.role 5 stack := by
  intro top found
  rcases awaits top found with rfl | ⟨operator, rfl⟩
  · decide
  · cases operator <;> decide

private theorem sends_of_leaves (leaves : Leaves 5 5 items sent []) (awaits : ∀ top ∈ stack.head?, Awaits top) :
    Sends stack items rest sent :=
  leaves.arranged stack rest (clear_of_awaits awaits)

/-- A sign lets go of its operand where nothing follows that binds tighter. -/
theorem sends_negate (leaves : Leaves 5 5 items sent []) (awaits : ∀ top ∈ stack.head?, Awaits top)
    (follows : ∀ next ∈ rest.head?, next = .closing ∨ ∃ operator, next = .binary operator ∧ operator ≠ .power) :
    Sends stack (.negate :: items) rest (sent ++ [.negate]) := by
  have inside : Leaves signLevel 3 items sent [] := leaves.loosen (by decide) (by decide)
  refine sends_waiting inside.negate (clear_of_awaits awaits) fun next head => ?_
  rcases follows next head with closing | ⟨operator, rfl, other⟩
  · exact .inl closing
  · refine .inr ⟨operator, rfl, ?_⟩
    cases operator <;> first | exact absurd rfl other | decide

private theorem sameEffect_group (x : Float) : SameEffect mode [.number (x / 100.0)] [.number x, .percent] :=
  fun _ => rfl

private theorem runFrom_percents (count : Nat) (stack : List Float) (x : Float) :
    Machine.runFrom (Lexeme.action mode) (x :: stack) (List.replicate count .percent) =
      .ok (percent^[count] x :: stack) := by
  induction count generalizing x with
  | zero => rfl
  | succ count ih =>
    rw [List.replicate_succ, Machine.runFrom_cons, Function.iterate_succ_apply, ← ih]
    rfl

private theorem percents_neg (count : Nat) (x : Float) : percent^[count] (-x) = -(percent^[count] x) := by
  induction count generalizing x with
  | zero => rfl
  | succ count ih =>
    rw [Function.iterate_succ_apply, Function.iterate_succ_apply, ← ih]
    exact congrArg percent^[count] (QuotientSign.neg_div x 100.0)

/-- It does not matter whether a sign is taken before the hundredths or after them. -/
theorem sameEffect_signed (count : Nat) (x : Float) :
    SameEffect mode ([Lexeme.number (-(x / 100.0))] ++ List.replicate count Lexeme.percent)
      ([Lexeme.number x, .percent] ++ List.replicate count Lexeme.percent ++ [Lexeme.negate]) := by
  intro stack
  have first : Machine.runFrom (Lexeme.action mode) stack [.number (-(x / 100.0))] =
      .ok (-(x / 100.0) :: stack) := rfl
  have second : Machine.runFrom (Lexeme.action mode) stack [.number x, .percent] =
      .ok (x / 100.0 :: stack) := rfl
  have last (y : Float) : Machine.runFrom (Lexeme.action mode) (y :: stack) [.negate] = .ok (-y :: stack) := rfl
  rw [Machine.runFrom_append, Machine.runFrom_append, Machine.runFrom_append, first, second]
  simp only [bind, Except.bind, runFrom_percents, last, percents_neg]

/-- A hundredth, with the sign before it, may stand for the literal in parentheses and the
percent sign. -/
theorem carryOut_group (awaits : ∀ last ∈ items.getLast?, Awaits last) (count : Nat) (x : Float)
    (follows : negative = true → ∀ next ∈ rest.head?, next = .closing ∨
      ∃ operator, next = .binary operator ∧ operator ≠ .power) :
    carryOut mode (items ++ ([Lexeme.number (signed negative (x / 100.0))] ++
        (List.replicate count Lexeme.percent ++ rest))) =
      carryOut mode (items ++ (groupRow negative x ++ (List.replicate count Lexeme.percent ++ rest))) := by
  cases negative with
  | false =>
    refine carryOut_middle awaits fun stack top => ?_
    have awaits' : ∀ waiting ∈ stack.head?, Awaits waiting := top ▸ awaits
    exact ⟨_, _, sends_of_leaves (.number _) awaits', sends_of_leaves (leaves_group x) awaits',
      sameEffect_group x⟩
  | true =>
    rw [← List.append_assoc [_], ← List.append_assoc (groupRow true x)]
    refine carryOut_middle awaits fun stack top => ?_
    have awaits' : ∀ waiting ∈ stack.head?, Awaits waiting := top ▸ awaits
    exact ⟨_, _, sends_of_leaves (leaves_percents count (.number _)) awaits',
      sends_negate (leaves_percents count (leaves_group x)) awaits' (follows rfl), sameEffect_signed count x⟩

end Reckon.Proofs.PercentReading
