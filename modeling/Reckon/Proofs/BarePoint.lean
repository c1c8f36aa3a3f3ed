import Reckon.Evaluation
import Reckon.Proofs.FilledGaps
import Reckon.Proofs.LexedNeighbours
import Reckon.Proofs.ReachedValue

/-! A text with a value is a sentence unless a point stands bare in it: at the end of a
literal before parentheses or a name, or at the beginning of one behind parentheses or a
percent sign. No product is written there. -/

namespace Reckon.Proofs.BarePoint
open Entry Lexer FilledGaps LexedNeighbours

variable {text : List Char}

/-- A point at the end of a literal with an operand behind it, or at the beginning of one
with an operand before it. -/
def Bare (left right : Char) : Prop :=
  (left = '.' ∧ (right = '(' ∨ Text.isLetter right = true)) ∨ ((left = ')' ∨ left = '%') ∧ right = '.')

instance (left right : Char) : Decidable (Bare left right) :=
  inferInstanceAs (Decidable (_ ∨ _))

def Guarded (text : List Char) : Prop :=
  text.IsChain fun left right => ¬ Bare left right

instance (text : List Char) : Decidable (Guarded text) :=
  inferInstanceAs (Decidable (List.IsChain _ text))

/-- Where operands touch although all gaps are filled, a point is bare. -/
theorem bare_of_touch {left right : Char} (joined : Joined left right) (touch : Touch left right) :
    Bare left right := by
  obtain ⟨ended, started, apart⟩ := touch
  obtain ⟨percent, product⟩ := joined
  simp only [startsChar, Bool.or_eq_true, beq_iff_eq, or_assoc] at started
  have operand : (Text.isDigit right = true ∨ right = '.') ∨ right = '(' ∨ Text.isLetter right = true :=
    started.imp_left LiteralPower.isDigit_or_point
  simp only [endsChar, Bool.or_eq_true, beq_iff_eq, or_assoc] at ended
  rcases ended with numeral | rfl | rfl
  · have fresh := started.resolve_left fun numeral' => apart ⟨numeral, numeral'⟩
    rcases LiteralPower.isDigit_or_point numeral with digit | point
    · rcases fresh with opening | letter
      · simp [productGap, digit, opening] at product
      · simp [productGap, digit, letter] at product
    · exact .inl ⟨point, fresh⟩
  · rcases operand with (digit | point) | opening | letter
    · simp [productGap, digit] at product
    · exact .inr ⟨.inl rfl, point⟩
    · simp [productGap, opening] at product
    · simp [productGap, letter] at product
  · rcases operand with (digit | point) | opening | letter
    · simp [Percent, percentGap, digit] at percent
    · exact .inr ⟨.inr rfl, point⟩
    · simp [Percent, percentGap, opening] at percent
    · simp [Percent, percentGap, letter] at percent

private theorem touch_of_bare {left right : Char} (bare : Bare left right) : Touch left right := by
  rcases bare with ⟨rfl, rfl | letter⟩ | ⟨rfl | rfl, rfl⟩
  · exact ⟨by decide, by decide, by decide⟩
  · exact ⟨by decide, by simp [startsChar, letter], by simp [(noNumeral_of_letter letter).1]⟩
  · exact ⟨by decide, by decide, by decide⟩
  · exact ⟨by decide, by decide, by decide⟩

theorem clear_iff_guarded {char : Char} (joined : (char :: text).IsChain Joined) :
    Clear (some char) text ↔ Guarded (char :: text) := by
  unfold Guarded
  induction text generalizing char with
  | nil => exact iff_of_true trivial (.singleton char)
  | cons next rest ih =>
    rw [List.isChain_cons_cons] at joined ⊢
    have here : ¬ Touch char next ↔ ¬ Bare char next :=
      not_congr ⟨bare_of_touch joined.1, touch_of_bare⟩
    rw [Clear, ih joined.2, ← here]
    simp

variable {config : Config} {mode : AngleMode} {text? : Option String} {value : Float}

private theorem computed_of_evaluate (passed : evaluate config mode text? = .ok value) :
    ∃ result, compute mode (enteredText text?).toList = .ok result := by
  simp only [evaluate] at passed
  split at passed
  case h_1 => cases passed
  case h_2 =>
    obtain ⟨limit, -, passed⟩ := bind_ok passed
    cases passed
  case h_3 =>
    split at passed
    case isTrue => cases passed
    case isFalse =>
      obtain ⟨result, computed, -⟩ := bind_ok passed
      cases known : compute mode (enteredText text?).toList with
      | ok result => exact ⟨result, rfl⟩
      | error failure =>
        rw [known] at computed
        cases computed

/-- If a text has a value, its lexemes are a sentence exactly if no point is bare. -/
theorem sentence_of_value (passed : evaluate config mode text? = .ok value) :
    ∃ items, lex (normalize (enteredText text?).toList) = .ok items ∧
      (Grammar.IsSentence items ↔ Guarded (normalize (enteredText text?).toList)) := by
  obtain ⟨result, computed⟩ := computed_of_evaluate passed
  obtain ⟨items, read, computed⟩ := bind_ok computed
  obtain ⟨ordered, reordered, ran⟩ := bind_ok computed
  have read := liftCause_ok read
  have lexed := lexed_of_lexFrom read
  have fits : Fits false none .nothing := .nothing rfl (by simp)
  refine ⟨items, read, ?_⟩
  rw [ReachedValue.sentence_iff_apart (liftCause_ok reordered) ran (called_of_lexed lexed).1,
    apart_iff_clear lexed fits]
  have joined := normalize_isChain (enteredText text?).toList
  cases known : normalize (enteredText text?).toList with
  | nil => exact iff_of_true ⟨fun _ => rfl, trivial⟩ .nil
  | cons char rest =>
    rw [known] at joined
    rw [← clear_iff_guarded joined, Clear]
    simp

theorem sentence_of_value_trailing_sign :
    evaluate {} .degrees (some "2.(3)+") = .ok 5.0 ∧
      ∃ items, lex (normalize "2.(3)+".toList) = .ok items ∧ ¬ Grammar.IsSentence items := by
  have passed : evaluate {} .degrees (some "2.(3)+") = .ok 5.0 := by decide +kernel
  obtain ⟨items, read, exact⟩ := sentence_of_value passed
  refine ⟨passed, items, read, fun sentence => ?_⟩
  exact absurd (exact.mp sentence) (by decide +kernel)

end Reckon.Proofs.BarePoint
