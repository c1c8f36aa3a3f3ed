import Reckon.Proofs.ExchangedParts

/-! Two signs side by side cancel wherever an operand may begin. Behind them the reader has
begun what it had begun before them, and nothing but positions in its errors tells the two
texts apart. -/

namespace Reckon.Proofs.CanceledSigns
open Lexer ErrorContract ExchangedParts Scanning

variable {before : Option Char} {position : Nat} {left rest : List Char}

/-- The texts were read as the same lexemes, or both are no expressions. -/
def ReadAlike (first second : Except Cause (List Lexeme)) : Prop :=
  (∃ items, first = .ok items ∧ second = .ok items) ∨
    ∃ cause cause', first = .error cause ∧ second = .error cause' ∧ Invalid cause ∧ Invalid cause'

theorem ReadAlike.behind {first second : Except Cause (List Lexeme)} (alike : ReadAlike first second)
    (items : List Lexeme) : ReadAlike ((items ++ ·) <$> first) ((items ++ ·) <$> second) := by
  rcases alike with ⟨others, rfl, rfl⟩ | ⟨cause, cause', rfl, rfl, invalid, invalid'⟩
  · exact .inl ⟨items ++ others, rfl, rfl⟩
  · exact .inr ⟨cause, cause', rfl, rfl, invalid, invalid'⟩

def openers : List Char :=
  ['+', '-', '*', '/', '^', '(']

private theorem opensOperand_of_mem (opener : ∀ char ∈ before, char ∈ openers) : opensOperand before = true := by
  cases before with
  | none => rfl
  | some char =>
    have known := opener char rfl
    have all : ∀ char ∈ openers, opensOperand (some char) = true := by decide
    exact all char known

/-- The first sign is begun and the second one cancels it, or the other way round behind a
sign that was begun before. -/
theorem lexFrom_pair (opens : opensOperand before = true) (negative : Bool) :
    lexFrom before position (begun negative) ('-' :: '-' :: rest) =
      lexFrom (some '-') (position + 2) (begun negative) rest := by
  have again : opensOperand (some '-') = true := rfl
  have cancels {before : Option Char} {position : Nat} {rest : List Char}
      (opens : opensOperand before = true) : lexFrom before position .sign ('-' :: rest) =
      lexFrom (some '-') (position + 1) .nothing rest := by
    have numeral : isNumeralChar '-' = false := rfl
    simp only [lexFrom, extend?, numeral, Bool.false_eq_true, if_false, opens, and_self, if_true]
  cases negative with
  | false => exact (lexFrom_sign opens).trans (cancels again)
  | true => exact (cancels opens).trans (lexFrom_sign again)

/-- A pair of signs changes nothing at the start of a text, behind an operator and behind an
opening parenthesis, whatever follows it. -/
theorem lex_sign_pair (opener : ∀ last ∈ left.getLast?, last ∈ openers) (right : List Char) :
    ReadAlike (lex (left ++ '-' :: '-' :: right)) (lex (left ++ right)) := by
  have opens := opensOperand_of_mem opener
  rw [lex_append, lex_append]
  cases scanned : scan none 0 .nothing left with
  | error cause =>
    have unread : lex (left ++ []) = .error cause := by
      rw [lex_append, scanned]
      rfl
    have invalid := lexFrom_failsOnly _ unread
    exact .inr ⟨cause, cause, rfl, rfl, invalid, invalid⟩
  | ok read =>
    obtain ⟨items, last⟩ := read
    obtain ⟨rfl, -⟩ := scan_opens scanned opens
    have alike : ReadAlike
        (lexFrom left.getLast? left.length (begun (endsInSign left.reverse)) ('-' :: '-' :: right))
        (lexFrom left.getLast? left.length (begun (endsInSign left.reverse)) right) := by
      rw [lexFrom_pair opens]
      have same : opensOperand (some '-') = opensOperand left.getLast? := opens.symm
      exact lexFrom_elsewhere same _ _ right
    exact alike.behind items

theorem lex_sign_pair_function :
    (∀ last ∈ "2*-".toList.getLast?, last ∈ openers) ∧
      ReadAlike (lex "2*---sin(30)".toList) (lex "2*-sin(30)".toList) ∧
      (lex "2*-sin(30)".toList).toOption.map (·.map Lexeme.name) =
        some ["number", "*", "neg", "sin", "(", "number", ")"] := by
  have opener : ∀ last ∈ "2*-".toList.getLast?, last ∈ openers := by decide
  exact ⟨opener, lex_sign_pair opener "sin(30)".toList, by decide +kernel⟩

end Reckon.Proofs.CanceledSigns
