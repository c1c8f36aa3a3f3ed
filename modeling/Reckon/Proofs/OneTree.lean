import Reckon.Proofs.ErrorContract
import Reckon.Proofs.Forest

/-! The rows in reverse Polish order that have a value. They are the postorders of trees, and a
row tells its tree. -/

namespace Reckon.Proofs.OneTree
open ErrorContract Forest

inductive Refuses (mode : AngleMode) : Expr → Cause → Prop
  | binary {operator : BinaryOp} {left right : Expr} {x y : Float} {cause : Cause}
      (first : left.value mode = .ok x) (second : right.value mode = .ok y)
      (fails : operator.apply x y = .error cause) : Refuses mode (.binary operator left right) cause
  | function {f : Function} {argument : Expr} {x : Float} {cause : Cause}
      (operand : argument.value mode = .ok x) (fails : f.apply mode x = .error cause) :
      Refuses mode (.function f argument) cause

/-- A part of the tree that fails while everything in front of it in postorder is carried out. -/
def FailsFirst (mode : AngleMode) (tree : Expr) (cause : Cause) : Prop :=
  ∃ before part rest, tree.postorder = before ++ part.postorder ++ rest ∧ Refuses mode part cause ∧
    ∀ stack, ∃ after, Machine.runFrom (Lexeme.action mode) stack before = .ok after

variable {mode : AngleMode} {tree part : Expr} {cause : Cause} {front back : List Lexeme}

theorem Refuses.failsFirst (refuses : Refuses mode tree cause) : FailsFirst mode tree cause :=
  ⟨[], tree, [], by simp, refuses, fun stack => ⟨stack, rfl⟩⟩

theorem FailsFirst.within (fails : FailsFirst mode part cause)
    (place : tree.postorder = front ++ part.postorder ++ back)
    (passes : ∀ stack, ∃ after, Machine.runFrom (Lexeme.action mode) stack front = .ok after) :
    FailsFirst mode tree cause := by
  obtain ⟨before, node, rest, inner, refuses, clear⟩ := fails
  refine ⟨front ++ before, node, rest ++ back, by simp [place, inner], refuses, ?_⟩
  intro stack
  obtain ⟨middle, first⟩ := passes stack
  obtain ⟨after, second⟩ := clear middle
  exact ⟨after, by rw [Machine.runFrom_append, first]; exact second⟩

private theorem runFrom_of_value {x : Float} (known : tree.value mode = .ok x) (stack : List Float) :
    Machine.runFrom (Lexeme.action mode) stack tree.postorder = .ok (x :: stack) := by
  have ran := Machine.runFrom_postorder mode tree stack []
  rw [List.append_nil, known] at ran
  exact ran

/-- The induction is on the tree. Its left part comes before its right part, and both before the
operation itself. -/
theorem failsFirst_of_value (failed : tree.value mode = .error cause) : FailsFirst mode tree cause := by
  have nothing : ∀ stack, ∃ after, Machine.runFrom (Lexeme.action mode) stack [] = .ok after :=
    fun stack => ⟨stack, rfl⟩
  induction tree with
  | literal x => cases failed
  | binary operator left right ihLeft ihRight =>
    simp only [Expr.value] at failed
    cases first : left.value mode with
    | error fault =>
      rw [first] at failed
      cases failed
      apply (ihLeft first).within _ nothing
      · exact right.postorder ++ [.binary operator]
      · simp [Expr.postorder]
    | ok x =>
      rw [first] at failed
      cases second : right.value mode with
      | error fault =>
        rw [second] at failed
        cases failed
        exact (ihRight second).within rfl fun stack => ⟨_, runFrom_of_value first stack⟩
      | ok y =>
        rw [second] at failed
        exact (Refuses.binary first second failed).failsFirst
  | negate operand ih | percent operand ih =>
    simp only [Expr.value] at failed
    cases inner : operand.value mode with
    | error fault =>
      rw [inner] at failed
      cases failed
      exact (ih inner).within rfl nothing
    | ok x =>
      rw [inner] at failed
      cases failed
  | function f argument ih =>
    simp only [Expr.value] at failed
    cases inner : argument.value mode with
    | error fault =>
      rw [inner] at failed
      cases failed
      exact (ih inner).within rfl nothing
    | ok x =>
      rw [inner] at failed
      exact (Refuses.function inner failed).failsFirst

theorem run_of_no_tree {items : List Lexeme} (none : ¬ ∃ tree : Expr, items = tree.postorder) :
    ∃ cause, Machine.run (Lexeme.action mode) items = .error (.ofCause cause) := by
  cases ran : Machine.run (Lexeme.action mode) items with
  | ok value => exact absurd (exists_tree_of_run (asks_action mode) ran) none
  | error failure =>
    obtain ⟨cause, rfl, -⟩ := run_failsOnly items failure ran
    exact ⟨cause, rfl⟩

/-- A row is the postorder of one tree or of none. If there is a tree, the machine gives its value,
or fails for the cause for which the first operation that fails does so. If there is none, the
machine fails, too. -/
theorem value_of_one_tree (mode : AngleMode) (items : List Lexeme) :
    (∀ first second : Expr, items = first.postorder → items = second.postorder → first = second) ∧
      (∀ tree : Expr, items = tree.postorder →
        (∃ value, tree.value mode = .ok value ∧
          Machine.run (Lexeme.action mode) items = .ok value) ∨
        ∃ cause, tree.value mode = .error cause ∧ FailsFirst mode tree cause ∧
          Machine.run (Lexeme.action mode) items = .error (.ofCause cause)) ∧
      ((∀ tree : Expr, items ≠ tree.postorder) →
        ∃ cause, Machine.run (Lexeme.action mode) items = .error (.ofCause cause)) := by
  refine ⟨?_, ?_, ?_⟩
  · intro first second same same'
    exact Expr.postorder_injective (same.symm.trans same')
  · rintro tree rfl
    rw [Machine.run_postorder]
    cases known : tree.value mode with
    | ok value => exact .inl ⟨value, rfl, rfl⟩
    | error cause => exact .inr ⟨cause, rfl, failsFirst_of_value known, rfl⟩
  · intro none
    apply run_of_no_tree
    rintro ⟨tree, same⟩
    exact none tree same

theorem value_of_one_tree_division :
    let tree : Expr := .binary .add (.binary .divide (.literal 1.0) (.literal 0.0))
      (.function .sqrt (.literal (-1.0)))
    let surplus : List Lexeme := [.number 1.0, .number 0.0, .binary .divide, .number 2.0]
    Machine.run (Lexeme.action .degrees) tree.postorder = .error (.ofCause .divisionByZero) ∧
      (∀ other : Expr, surplus ≠ other.postorder) ∧
      ∃ cause, Machine.run (Lexeme.action .degrees) surplus = .error (.ofCause cause) := by
  intro tree surplus
  have divides : tree.value .degrees = .error .divisionByZero := rfl
  have none : ∀ other : Expr, surplus ≠ other.postorder := by
    intro other same
    have last := congrArg List.getLast? same
    cases other with
    | literal => simp [surplus, Expr.postorder] at same
    | _ => simp [surplus, Expr.postorder] at last
  refine ⟨?_, none, (value_of_one_tree .degrees surplus).2.2 none⟩
  rcases (value_of_one_tree .degrees tree.postorder).2.1 tree rfl with ⟨_, known, -⟩ | ⟨_, known, -, ran⟩
  · rw [divides] at known
    cases known
  · rw [divides] at known
    cases known
    exact ran

end Reckon.Proofs.OneTree
