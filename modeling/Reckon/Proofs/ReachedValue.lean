import Mathlib.Data.List.TakeWhile
import Reckon.Proofs.Forest
import Reckon.Proofs.Precedence

/-! What a value says about the lexemes it was computed from: the parentheses matched, and
the numbers were one more than the binary operators. -/

namespace Reckon.Polish

variable {α : Type} {role : α → Role} {stack leaving waiting : List α}

/-- Closing parentheses take one opening from the stack. What leaves and what goes on waiting is
all that is left of it, in its order. -/
theorem exists_opening_of_close? (closes : close? role stack = some (leaving, waiting)) :
    ∃ inside opening below, stack = inside ++ opening :: below ∧ role opening = .opening ∧
      leaving ++ waiting = inside ++ below ∧ ∀ item ∈ leaving, isOpening role item = false := by
  have parts := @List.takeWhile_append_dropWhile _ (!isOpening role ·) stack
  have stops := List.head?_dropWhile_not (!isOpening role ·) stack
  have clear : ∀ item ∈ stack.takeWhile (!isOpening role ·), isOpening role item = false := by
    intro item member
    simpa using List.mem_takeWhile_imp member
  unfold close? at closes
  generalize stack.takeWhile (!isOpening role ·) = inside at parts closes clear
  cases found : stack.dropWhile (!isOpening role ·) with
  | nil => simp [found] at closes
  | cons first tail =>
    rw [found] at parts stops closes
    have opens : role first = .opening := by simpa [isOpening] using stops
    refine ⟨inside, first, tail, parts.symm, opens, ?_⟩
    cases tail with
    | nil =>
      obtain ⟨rfl, rfl⟩ := Prod.mk.inj (Option.some.inj closes)
      exact ⟨rfl, clear⟩
    | cons below rest =>
      simp only at closes
      split at closes
      case isTrue called =>
        obtain ⟨rfl, rfl⟩ := Prod.mk.inj (Option.some.inj closes)
        refine ⟨by simp, ?_⟩
        intro item member
        rcases List.mem_append.mp member with inner | last
        · exact clear item inner
        · cases List.mem_singleton.mp last
          simp [isOpening, called]
      case isFalse =>
        obtain ⟨rfl, rfl⟩ := Prod.mk.inj (Option.some.inj closes)
        exact ⟨rfl, clear⟩

end Reckon.Polish

namespace Reckon.Proofs.ReachedValue
open Lexer Polish SentenceShape

variable {mode : AngleMode} {item : Lexeme} {items ordered stack leaving waiting : List Lexeme}

private theorem gain_of_run {value : Float}
    (passed : Machine.run (Lexeme.action mode) ordered = .ok value) : gain ordered = 1 := by
  obtain ⟨tree, rfl⟩ := Forest.exists_tree_of_run (Forest.asks_action mode) passed
  exact Forest.gain_postorder tree

theorem eq_opening (opens : isOpening Lexeme.role item = true) : item = .opening := by
  cases item <;> first | rfl | cases opens

/-- Closing parentheses take one opening from the stack and no number or operator. -/
theorem close?_spec (closes : close? Lexeme.role stack = some (leaving, waiting)) :
    gain stack = gain leaving + gain waiting ∧
      stack.countP (isOpening Lexeme.role) = waiting.countP (isOpening Lexeme.role) + 1 := by
  obtain ⟨inside, first, below, rfl, opens, whole, clear⟩ := exists_opening_of_close? closes
  have opens' : isOpening Lexeme.role first = true := by simp [isOpening, opens]
  obtain rfl := eq_opening opens'
  constructor
  · rw [← gain_append, whole, gain_append, gain_append]
    simp [gain, Lexeme.gain]
  · have none : leaving.countP (isOpening Lexeme.role) = 0 := by
      simpa [List.countP_eq_zero] using clear
    have count := congrArg (List.countP (isOpening Lexeme.role)) whole
    simp only [List.countP_append, List.countP_cons_of_pos opens', none] at count ⊢
    omega

/-- An arriving operator makes no opening leave. -/
theorem waiting_spec (level : Rat) :
    gain stack = gain (stack.takeWhile (actsBefore Lexeme.role level)) +
        gain (stack.dropWhile (actsBefore Lexeme.role level)) ∧
      stack.countP (isOpening Lexeme.role) =
        (stack.dropWhile (actsBefore Lexeme.role level)).countP (isOpening Lexeme.role) := by
  have parts := @List.takeWhile_append_dropWhile _ (actsBefore Lexeme.role level) stack
  have none : (stack.takeWhile (actsBefore Lexeme.role level)).countP (isOpening Lexeme.role) = 0 := by
    refine List.countP_eq_zero.mpr fun item member => ?_
    rw [not_isOpening_of_actsBefore (List.mem_takeWhile_imp member)]
    exact Bool.false_ne_true
  have count := congrArg (List.countP (isOpening Lexeme.role)) parts
  rw [List.countP_append, none, Nat.zero_add] at count
  exact ⟨by rw [← gain_append, parts], count.symm⟩

/-- The items leave with the numbers and operators that came, and every parenthesis that
opened was closed. -/
theorem arrange_spec (arranged : arrange Lexeme.role stack items = .ok ordered) :
    gain ordered = gain stack + gain items ∧
      Nested (stack.countP (isOpening Lexeme.role)) items := by
  induction items generalizing stack ordered with
  | nil =>
    obtain ⟨rfl, clear⟩ := arrange_nil_eq_ok_iff.mp arranged
    exact ⟨by simp [gain], List.countP_eq_zero.mpr (by simpa using clear)⟩
  | cons item rest ih =>
    have sum : gain (item :: rest) = item.gain + gain rest := by simp [gain]
    cases item with
    | number | percent =>
      obtain ⟨later, left, rfl⟩ := map_ok arranged
      obtain ⟨total, nested⟩ := ih left
      refine ⟨?_, nested⟩
      rw [sum, ← List.singleton_append, gain_append, total]
      simp only [gain]
      omega
    | negate | function =>
      obtain ⟨total, nested⟩ := ih arranged
      exact ⟨by simpa [gain, Lexeme.gain] using total, nested⟩
    | opening =>
      obtain ⟨total, nested⟩ := ih arranged
      rw [List.countP_cons_of_pos rfl] at nested
      exact ⟨by simpa [gain, Lexeme.gain] using total, nested⟩
    | binary operator =>
      obtain ⟨later, left, rfl⟩ := map_ok arranged
      obtain ⟨total, nested⟩ := ih left
      obtain ⟨kept, count⟩ := waiting_spec operator.level
      rw [List.countP_cons_of_neg Bool.false_ne_true, ← count] at nested
      refine ⟨?_, nested⟩
      rw [gain_append, total, kept, sum]
      simp only [gain]
      omega
    | closing =>
      obtain ⟨leaving, waiting, later, closes, left, rfl⟩ := (arrange_closing_eq_ok_iff rfl).mp arranged
      obtain ⟨total, nested⟩ := ih left
      obtain ⟨kept, count⟩ := close?_spec closes
      refine ⟨?_, _, count, nested⟩
      have none : Lexeme.closing.gain = 0 := rfl
      rw [gain_append, total, sum, kept, none]
      omega

/-- Where no operands touch, a row that leaves with one number more than binary operators is a
sentence. -/
theorem sentence_of_gain (reordered : reorder Lexeme.role items = .ok ordered) (one : gain ordered = 1)
    (called : Called items) (apart : Apart false items) : Grammar.IsSentence items := by
  obtain ⟨total, nested⟩ := arrange_spec reordered
  have whole : gain items = 1 := by
    rw [one] at total
    simpa [gain] using total.symm
  apply sentence_of_regular _ nested called
  apply (regular_of_apart apart).2
  simpa using whole

/-- A value is computed from a sentence, or from a row in which two operands touch. -/
theorem sentence_iff_apart {value : Float} (reordered : reorder Lexeme.role items = .ok ordered)
    (passed : Machine.run (Lexeme.action mode) ordered = .ok value) (called : Called items) :
    Grammar.IsSentence items ↔ Apart false items := by
  constructor
  · intro sentence
    exact apart_of_regular (regular_of_sentence sentence)
  · exact sentence_of_gain reordered (gain_of_run passed) called

end Reckon.Proofs.ReachedValue
