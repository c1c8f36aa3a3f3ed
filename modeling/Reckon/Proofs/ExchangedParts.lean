import Reckon.Proofs.Arranging
import Reckon.Proofs.ErrorContract
import Reckon.Proofs.PowerSign
import Reckon.Proofs.Scanning

/-! Two texts that differ in one part in the middle. If the reader takes both parts for rows
with the same effect, the texts have the same value or fail alike. -/

namespace Reckon.Proofs.ExchangedParts
open Lexer Polish Arranging ErrorContract LexedNeighbours PowerSign Scanning

variable {mode : AngleMode} {left part part' right : List Char} {items row row' rest : List Lexeme}
  {last pending : Pending} {before beside : Option Char} {position place : Nat} {char : Char}

/-- Behind an operand a text is read in one way, wherever it stands. -/
theorem lexFrom_elsewhere (same : opensOperand before = opensOperand beside) (position place : Nat)
    (text : List Char) :
    (∃ items, lexFrom before position pending text = .ok items ∧
        lexFrom beside place pending text = .ok items) ∨
      ∃ cause cause', lexFrom before position pending text = .error cause ∧
        lexFrom beside place pending text = .error cause' ∧ Invalid cause ∧ Invalid cause' := by
  cases read : lexFrom before position pending text with
  | ok items => exact .inl ⟨items, rfl, lexFrom_congr place same read⟩
  | error cause =>
    cases read' : lexFrom beside place pending text with
    | ok items =>
      rw [lexFrom_congr position same.symm read'] at read
      cases read
    | error cause' =>
      exact .inr ⟨cause, cause', rfl, rfl, lexFrom_failsOnly _ read, lexFrom_failsOnly _ read'⟩

private theorem sameAnswer_of_invalid {cause cause' : Cause} (mode : AngleMode) (invalid : Invalid cause)
    (invalid' : Invalid cause') :
    SameAnswer (liftCause (.error cause) >>= carryOut mode) (liftCause (.error cause') >>= carryOut mode) := by
  have kinds : cause.kind = cause'.kind := Eq.trans invalid (Eq.symm invalid')
  show Except.error (Sum.inl cause.kind) = Except.error (Sum.inl cause'.kind)
  rw [kinds]

/-- The reader takes the part for a row of lexemes and goes on behind an operand. -/
def ReadAs (left : List Char) (last : Pending) (part right : List Char) (row : List Lexeme) : Prop :=
  ∃ beside place, opensOperand beside = false ∧
    lexFrom left.getLast? left.length last (part ++ right) =
      (row ++ ·) <$> lexFrom beside place .nothing right

def Behind (right : List Char) (rest : List Lexeme) : Prop :=
  ∃ beside place, opensOperand beside = false ∧ lexFrom beside place .nothing right = .ok rest

theorem lex_append (left right : List Char) :
    lex (left ++ right) = scan none 0 .nothing left >>= fun (items, last) =>
      (items ++ ·) <$> lexFrom left.getLast? left.length last right := by
  rw [lex, lexFrom_append, Option.or_none, Nat.zero_add]

theorem sameAnswer_of_read (scanned : scan none 0 .nothing left = .ok (items, last))
    (read : ReadAs left last part right row) (read' : ReadAs left last part' right row')
    (same : ∀ rest, Behind right rest →
      carryOut mode (items ++ (row ++ rest)) = carryOut mode (items ++ (row' ++ rest))) :
    SameAnswer (execute mode (left ++ (part ++ right))) (execute mode (left ++ (part' ++ right))) := by
  obtain ⟨beside, place, closed, steps⟩ := read
  obtain ⟨beside', place', closed', steps'⟩ := read'
  unfold execute
  rw [lex_append, lex_append, scanned]
  simp only [bind, Except.bind]
  rw [steps, steps']
  rcases lexFrom_elsewhere (closed.trans closed'.symm) place place' right with
    ⟨rest, known, known'⟩ | ⟨cause, cause', known, known', invalid, invalid'⟩
  · rw [known, known']
    exact congrArg (Except.mapError shape) (same rest ⟨beside, place, closed, known⟩)
  · rw [known, known']
    exact sameAnswer_of_invalid mode invalid invalid'

theorem sameAnswer_of_unread {cause : Cause} (unread : scan none 0 .nothing left = .error cause)
    (part part' : List Char) :
    SameAnswer (execute mode (left ++ part)) (execute mode (left ++ part')) := by
  have failed (part : List Char) : lex (left ++ part) = .error cause := by
    rw [lex_append, unread]
    rfl
  unfold execute
  rw [failed, failed]
  rfl

theorem sameAnswer_of_word {letters : List Char}
    (scanned : scan none 0 .nothing left = .ok (items, .word letters))
    (ends : ∀ char ∈ part.head?, Text.isLetter char = false ∧ char ≠ '(')
    (ends' : ∀ char ∈ part'.head?, Text.isLetter char = false ∧ char ≠ '(') :
    SameAnswer (execute mode (left ++ part)) (execute mode (left ++ part')) := by
  have failed (part : List Char) (ends : ∀ char ∈ part.head?, Text.isLetter char = false ∧ char ≠ '(') :
      ∃ cause, lex (left ++ part) = .error cause ∧ Invalid cause := by
    cases read : lex (left ++ part) with
    | error cause => exact ⟨cause, rfl, lexFrom_failsOnly _ read⟩
    | ok items =>
      rw [lex_append, scanned] at read
      obtain ⟨others, read, -⟩ := Lexer.map_ok read
      cases lexed_of_lexFrom read with
      | finish settled => cases settled
      | extend extended =>
        have letter := (ends _ rfl).1
        simp [extend?, letter] at extended
      | step _ settled =>
        cases settled
        exact absurd rfl (ends _ rfl).2
  obtain ⟨cause, known, invalid⟩ := failed part ends
  obtain ⟨cause', known', invalid'⟩ := failed part' ends'
  unfold execute
  rw [known, known']
  exact sameAnswer_of_invalid mode invalid invalid'

/-- What is read first behind an operand is the symbol that stands there. -/
theorem head?_of_behind (behind : Behind right rest)
    (fresh : ∀ char ∈ right.head?, isNumeralChar char = false ∧ Text.isLetter char = false) :
    rest.head? = right.head?.bind symbol? := by
  obtain ⟨beside, place, closed, read⟩ := behind
  cases right with
  | nil =>
    obtain rfl := Except.ok.inj read
    rfl
  | cons char right =>
    obtain ⟨noNumeral, noLetter⟩ := fresh char rfl
    cases known : symbol? char with
    | none =>
      have noSign : ¬ (char = '-' ∧ opensOperand beside = true) := by simp [closed]
      simp only [lexFrom, extend?, noNumeral, Bool.false_eq_true, if_false, settle, start, noSign,
        noLetter, known] at read
      cases read
    | some lexeme =>
      rw [lexFrom_symbol known fun _ => closed] at read
      obtain ⟨others, -, rfl⟩ := Lexer.map_ok read
      exact known.symm

/-- Behind an operand that no further one follows, the row ends or goes on with what lets go
of the operand. -/
theorem follows_of_behind (behind : Behind right rest)
    (fresh : ∀ char ∈ right.head?, isNumeralChar char = false ∧ Text.isLetter char = false)
    (noOperand : ∀ char ∈ right.head?, char ≠ '(' ∧ char ≠ '%') :
    ∀ next ∈ rest.head?, next = .closing ∨
      ∃ operator, next = .binary operator ∧ right.head? = some (BinaryOp.symbol operator) := by
  intro next first
  rw [Option.mem_def, head?_of_behind behind fresh, Option.bind_eq_some_iff] at first
  obtain ⟨char, head, known⟩ := first
  rcases symbol_cases known with ⟨rfl, -⟩ | ⟨-, rfl⟩ | ⟨rfl, -⟩ | ⟨operator, rfl, rfl⟩
  · exact absurd rfl (noOperand _ head).1
  · exact .inl rfl
  · exact absurd rfl (noOperand _ head).2
  · exact .inr ⟨operator, rfl, head⟩

end Reckon.Proofs.ExchangedParts
