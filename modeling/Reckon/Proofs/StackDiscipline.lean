import Reckon.Proofs.OneTree

/-! Which rows can be worked out as far as their shape goes. Where every function has its
parentheses and no operands touch, neither the order of operations nor the stack takes a row that
is no sentence. -/

namespace Reckon.Proofs.StackDiscipline
open ErrorContract Forest Grammar Polish ReachedValue SentenceShape

/-- The action with a number in the place of an arithmetic failure. -/
def spared : Machine.Action → Machine.Action
  | .push value => .push (.ok (value.toOption.getD 0.0))
  | .unary name compute => .unary name fun x => .ok ((compute x).toOption.getD 0.0)
  | .binary name compute => .binary name fun x y => .ok ((compute x y).toOption.getD 0.0)
  | .refuse failure => .refuse failure

/-- No operator lacks operands and one value is left, whatever the values are. -/
def Balanced (mode : AngleMode) (items : List Lexeme) : Prop :=
  ∃ value, Machine.run (fun item => spared (item.action mode)) items = .ok value

def Arithmetic (cause : Cause) : Prop :=
  cause.kind = .divisionByZero ∨ cause.kind = .domainError

variable {mode : AngleMode} {item : Lexeme} {items ordered : List Lexeme} {action : Machine.Action}

private theorem asks_spared (asks : Asks item action) : Asks item (spared action) := by
  cases asks with
  | push x value => exact .push x _
  | unary apply grows name compute => exact .unary apply grows _ _
  | binary operator name compute => exact .binary operator _ _
  | refuse item failure => exact .refuse item _

/-- A tree leaves one number on the stack. -/
theorem runFrom_spared (tree : Expr) (stack : List Float) :
    ∃ x, Machine.runFrom (fun item => spared (item.action mode)) stack tree.postorder =
      .ok (x :: stack) := by
  induction tree generalizing stack with
  | literal x => exact ⟨x, rfl⟩
  | binary operator left right first second =>
    obtain ⟨x, ranFirst⟩ := first stack
    obtain ⟨y, ranSecond⟩ := second (x :: stack)
    rw [Expr.postorder, Machine.runFrom_append, Machine.runFrom_append, ranFirst]
    simp only [bind, Except.bind, ranSecond]
    exact ⟨_, rfl⟩
  | negate operand ih | percent operand ih | function f operand ih =>
    obtain ⟨x, ran⟩ := ih stack
    rw [Expr.postorder, Machine.runFrom_append, ran]
    exact ⟨_, rfl⟩

private theorem balanced_iff_tree : Balanced mode ordered ↔ ∃ tree : Expr, ordered = tree.postorder := by
  constructor
  · rintro ⟨value, ran⟩
    exact exists_tree_of_run (fun item => asks_spared (asks_action mode item)) ran
  · rintro ⟨tree, rfl⟩
    obtain ⟨x, ran⟩ := @runFrom_spared mode tree []
    exact ⟨x, by rw [Machine.run, ran]; rfl⟩

private theorem value_failsOnly (tree : Expr) : FailsOnly Arithmetic (tree.value mode) := by
  induction tree with
  | literal x => exact .ok x
  | binary operator left right first second =>
    refine first.bind fun x _ => second.bind fun y _ => ?_
    rintro cause failed
    obtain rfl := operator_failsOnly operator x y cause failed
    exact .inl rfl
  | negate operand ih | percent operand ih => exact ih.bind fun x _ => .ok _
  | function f argument ih =>
    refine ih.bind fun x _ => ?_
    rintro cause failed
    obtain rfl := function_failsOnly f x cause failed
    exact .inr rfl

/-- Where the stack is balanced, nothing but arithmetic can fail. -/
theorem run_of_balanced (balanced : Balanced mode ordered) :
    FailsOnly (fun failure => ∃ cause, failure = .ofCause cause ∧ Arithmetic cause)
      (Machine.run (Lexeme.action mode) ordered) := by
  obtain ⟨tree, rfl⟩ := balanced_iff_tree.mp balanced
  rw [Machine.run_postorder]
  cases known : tree.value mode with
  | ok value => exact .ok value
  | error cause => exact .error ⟨cause, rfl, value_failsOnly tree cause known⟩

/-- Where every function has its parentheses and no operands touch, a row can be put in order with
the stack balanced exactly if it is a sentence. The machine then has a value or fails for
arithmetic alone; with the stack out of balance it always fails. -/
theorem accepted_iff_sentence (mode : AngleMode) {items : List Lexeme} (called : Called items)
    (apart : Apart false items) :
    ((∃ ordered, reorder Lexeme.role items = .ok ordered ∧ Balanced mode ordered) ↔
        IsSentence items) ∧
      ∀ ordered, (Balanced mode ordered →
          FailsOnly (fun failure => ∃ cause, failure = .ofCause cause ∧ Arithmetic cause)
            (Machine.run (Lexeme.action mode) ordered)) ∧
        (¬ Balanced mode ordered →
          ∃ cause, Machine.run (Lexeme.action mode) ordered = .error (.ofCause cause)) := by
  refine ⟨⟨?_, ?_⟩, fun ordered => ⟨run_of_balanced, fun unbalanced => ?_⟩⟩
  · rintro ⟨ordered, reordered, balanced⟩
    obtain ⟨tree, rfl⟩ := balanced_iff_tree.mp balanced
    exact sentence_of_gain reordered (gain_postorder tree) called apart
  · intro sentence
    obtain ⟨tree, reading⟩ := Readings.exists_reading sentence
    exact ⟨tree.postorder, Precedence.reorder_of_reads reading, balanced_iff_tree.mpr ⟨tree, rfl⟩⟩
  · rw [balanced_iff_tree] at unbalanced
    exact OneTree.run_of_no_tree unbalanced

theorem accepted_iff_sentence_groups :
    let root : List Lexeme := [.negate, .function .sqrt, .opening, .number 4.0, .closing, .percent,
      .binary .power, .negate, .number 2.0]
    let hollow : List Lexeme := [.number 2.0, .binary .add, .opening, .closing, .binary .multiply,
      .number 3.0]
    (Called root ∧ Apart false root ∧ IsSentence root) ∧
      Called hollow ∧ Apart false hollow ∧ ¬ IsSentence hollow := by
  intro root hollow
  have called : Called root ∧ Called hollow := by simp [root, hollow, Called]
  have apart : Apart false root ∧ Apart false hollow := by
    simp [root, hollow, Apart, Lexeme.starts, Lexeme.ends]
  refine ⟨⟨called.1, apart.1, ?_⟩, called.2, apart.2, fun sentence => ?_⟩
  · apply (accepted_iff_sentence .degrees called.1 apart.1).1.mp
    exact ⟨[.number 4.0, .function .sqrt, .percent, .number 2.0, .negate, .binary .power, .negate],
      rfl, _, rfl⟩
  · obtain ⟨ordered, reordered, value, ran⟩ :=
      (accepted_iff_sentence .degrees called.2 apart.2).1.mpr sentence
    cases reordered
    cases ran

end Reckon.Proofs.StackDiscipline
