import Reckon.Proofs.LexerSteps
import Reckon.Proofs.SentenceShape

/-! The rows that the machine can run to a value. Whatever is on its stack was worked out
by a forest of trees, whose postorders are what was run so far. -/

namespace Reckon.Proofs.Forest
open SentenceShape

def written : List Expr → List Lexeme
  | [] => []
  | tree :: below => written below ++ tree.postorder

/-- What a lexeme has the machine do takes as many operands as the lexeme has in a tree. -/
inductive Asks : Lexeme → Machine.Action → Prop
  | push (x : Float) (value : Except Failure Float) : Asks (.number x) (.push value)
  | unary {item : Lexeme} (apply : Expr → Expr)
      (grows : ∀ operand, (apply operand).postorder = operand.postorder ++ [item])
      (name : String) (compute : Float → Except Failure Float) : Asks item (.unary name compute)
  | binary (operator : BinaryOp) (name : String) (compute : Float → Float → Except Failure Float) :
      Asks (.binary operator) (.binary name compute)
  | refuse (item : Lexeme) (failure : Failure) : Asks item (.refuse failure)

theorem asks_action (mode : AngleMode) (item : Lexeme) : Asks item (item.action mode) := by
  cases item with
  | number x => exact .push x _
  | opening => exact .refuse .opening _
  | closing => exact .refuse .closing _
  | binary operator => exact .binary operator _ _
  | negate => exact .unary .negate (fun _ => rfl) _ _
  | percent => exact .unary .percent (fun _ => rfl) _ _
  | function f => exact .unary (.function f) (fun _ => rfl) _ _

section Runs

variable {action : Lexeme → Machine.Action} {trees : List Expr} {item : Lexeme} {items : List Lexeme}
  {before after : List Float}

/-- An action leaves one tree more, or one tree made of those on top. -/
theorem step_grows (asks : Asks item (action item))
    (passed : Machine.step before (action item) = .ok after) (same : trees.length = before.length) :
    ∃ grown, written grown = written trees ++ [item] ∧ grown.length = after.length := by
  generalize action item = asked at asks passed
  cases asks with
  | push x value =>
    obtain ⟨result, -, rfl⟩ := Lexer.map_ok passed
    exact ⟨.literal x :: trees, rfl, by simp [same]⟩
  | unary apply grows name compute =>
    match before, trees with
    | [], _ => cases passed
    | _ :: _, [] => simp at same
    | operand :: stack, top :: below =>
      obtain ⟨result, -, rfl⟩ := Lexer.map_ok passed
      exact ⟨apply top :: below, by simp [written, grows], same⟩
  | binary operator name compute =>
    match before, trees with
    | [], _ | [_], _ => cases passed
    | _ :: _ :: _, [] | _ :: _ :: _, [_] => simp at same
    | right :: left :: stack, second :: first :: below =>
      obtain ⟨result, -, rfl⟩ := Lexer.map_ok passed
      exact ⟨.binary operator first second :: below, by simp [written, Expr.postorder], by simpa using same⟩
  | refuse item failure => cases before <;> cases passed

variable (asks : ∀ item, Asks item (action item))

include asks

private theorem runFrom_grows (passed : Machine.runFrom action before items = .ok after)
    (same : trees.length = before.length) :
    ∃ grown, written grown = written trees ++ items ∧ grown.length = after.length := by
  induction items generalizing before trees with
  | nil =>
    obtain rfl := Except.ok.inj passed
    exact ⟨trees, by simp, same⟩
  | cons item rest ih =>
    rw [Machine.runFrom_cons] at passed
    obtain ⟨middle, stepped, later⟩ := Lexer.bind_ok passed
    obtain ⟨grown, first, height⟩ := step_grows (asks item) stepped same
    obtain ⟨last, whole, final⟩ := ih later height
    exact ⟨last, by rw [whole, first, List.append_assoc, List.singleton_append], final⟩

/-- The one value that is left belongs to one tree. -/
theorem exists_tree_of_run {value : Float} (passed : Machine.run action items = .ok value) :
    ∃ tree : Expr, items = tree.postorder := by
  obtain ⟨stack, ran, left⟩ := Lexer.bind_ok passed
  have empty : ([] : List Expr).length = ([] : List Float).length := rfl
  obtain ⟨grown, whole, height⟩ := runFrom_grows asks ran empty
  match stack with
  | [] | _ :: _ :: _ => cases left
  | [_] =>
    obtain ⟨tree, rfl⟩ := List.length_eq_one_iff.mp height
    exact ⟨tree, by simpa [written] using whole.symm⟩

end Runs

/-- A tree has one number more than binary operators. -/
theorem gain_postorder (tree : Expr) : gain tree.postorder = 1 := by
  induction tree with
  | literal x => rfl
  | binary operator left right first second =>
    rw [Expr.postorder, gain_append, gain_append, first, second]
    rfl
  | negate operand ih | percent operand ih | function f operand ih =>
    rw [Expr.postorder, gain_append, ih]
    rfl

end Reckon.Proofs.Forest
