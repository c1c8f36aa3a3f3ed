import Reckon.Proofs.CanceledSigns
import Reckon.Proofs.FoldedParts

/-! A minus in front of a text. Nothing before the reader takes notice of it, and the reader
gives it to the literal that begins the text, lets it cancel a sign, or makes an operator of it
in front of parentheses and functions. In front of anything else it is no sign. -/

namespace Reckon.Proofs.TurnedSign
open Entry Lexer CanceledSigns ExchangedParts LexedNeighbours Scanning

variable {text rest digits letters : List Char} {char : Char} {items others : List Lexeme}
  {before beside : Option Char} {position place : Nat}

section Text

private theorem foreign_minus : Foreign '-' :=
  ⟨by decide, by decide⟩

private theorem fillGaps_minus {gap : Char → Char → List Char} (quiet : ∀ next, gap '-' next = [])
    (text : List Char) : fillGaps gap ('-' :: text) = '-' :: fillGaps gap text := by
  rw [fillGaps_cons]
  cases text <;> simp [bridge, quiet]

/-- A minus in front comes to the reader in front, and the text behind it as if it stood alone. -/
theorem normalize_minus (text : List Char) : normalize ('-' :: text) = '-' :: normalize text := by
  have noOperand : Text.isDigit '-' = false ∧ Text.isLetter '-' = false := by decide
  have noPercent (next : Char) : percentGap '-' next = [] := by simp [percentGap]
  have noProduct (next : Char) : productGap '-' next = [] := by simp [productGap, noOperand]
  have noZero (next : Char) : emptyGap '-' next = [] := by simp [emptyGap]
  have cut : Cut ['-'].getLast? (Entry.spelled text).head? := .inl (by simp; decide)
  have kept : expandConstants ['-'] = ['-'] := rfl
  have entered : Entry.spelled ('-' :: text) = ['-'] ++ Entry.spelled text := spelled_append ['-'] text
  have prepared : prepare ('-' :: text) = '-' :: prepare text := by
    rw [prepare_eq, entered, expandConstants_parts cut, kept, List.singleton_append,
      fillGaps_minus noPercent, prepare_eq]
  have computed' : computed ('-' :: prepare text) = '-' :: computed (prepare text) :=
    computed_foreign foreign_minus [] (prepare text)
  have shape (text : List Char) : normalize text = written (computed (prepare text)) := rfl
  rw [shape, prepared, computed', written, fillGaps_minus noProduct, fillGaps_minus noZero]
  rfl

end Text

/-- The row with the sign of its first operand turned. Only an operand can have a sign. -/
def turned : List Lexeme → Option (List Lexeme)
  | .number x :: rest => some (.number (-x) :: rest)
  | .negate :: rest => some rest
  | .opening :: rest => some (.negate :: .opening :: rest)
  | .function f :: rest => some (.negate :: .function f :: rest)
  | _ => none

/-- Each of two outcomes of reading tells the other: one is read where the turned row of the
other is a row. -/
structure Turns (first second : Except Cause (List Lexeme)) : Prop where
  forth : ∀ items, first = .ok items → ∀ row, second = .ok row ↔ turned items = some row
  back : ∀ items, second = .ok items → ∀ row, first = .ok row ↔ turned items = some row

theorem Turns.symm {first second : Except Cause (List Lexeme)} (turns : Turns first second) :
    Turns second first :=
  ⟨turns.back, turns.forth⟩

theorem Turns.congr {first second other : Except Cause (List Lexeme)} (turns : Turns first second)
    (same : ∀ row, second = .ok row ↔ other = .ok row) : Turns first other where
  forth items read row := (same row).symm.trans (turns.forth items read row)
  back items read := turns.back items ((same items).mpr read)

private theorem turns_of_error {first second : Except Cause (List Lexeme)} {cause : Cause}
    (unturned : ∀ items, first = .ok items → turned items = none) (failed : second = .error cause) :
    Turns first second := by
  subst failed
  refine ⟨fun items read row => ?_, nofun⟩
  rw [unturned items read]
  exact ⟨nofun, nofun⟩

private theorem turns_of_errors {first second : Except Cause (List Lexeme)} {cause cause' : Cause}
    (failed : first = .error cause) (failed' : second = .error cause') : Turns first second := by
  subst failed
  exact turns_of_error (by rintro _ ⟨⟩) failed'

private theorem turns_of_rows (there : turned items = some others) (andBack : turned others = some items) :
    Turns (.ok items) (.ok others) := by
  constructor
  · rintro _ ⟨⟩ other
    rw [there, Except.ok.injEq, Option.some.injEq]
  · rintro _ ⟨⟩ other
    rw [andBack, Except.ok.injEq, Option.some.injEq]

private theorem lexFrom_same (same : opensOperand before = opensOperand beside) {pending : Pending} :
    lexFrom before position pending text = .ok items ↔ lexFrom beside place pending text = .ok items :=
  ⟨lexFrom_congr place same, lexFrom_congr position same.symm⟩

private theorem turns_literal (x : Float) : turned (.number (-x) :: others) = some (.number x :: others) := by
  rw [turned, Double.neg_neg]

/-- A numeral is read with a sign and without one. -/
theorem turns_numeral : Turns (lexFrom before position (.numeral false digits) text)
    (lexFrom before place (.numeral true digits) text) := by
  induction text generalizing before position place digits with
  | nil =>
    rw [lexFrom, lexFrom, settle, settle, numeral, numeral]
    cases Reading.decimal? digits with
    | none => exact turns_of_errors rfl rfl
    | some decimal => exact turns_of_rows rfl (turns_literal _)
  | cons char rest ih =>
    by_cases inside : isNumeralChar char = true
    · have grows (negative : Bool) (position : Nat) :
          lexFrom before position (.numeral negative digits) (char :: rest) =
            lexFrom (some char) (position + 1) (.numeral negative (digits ++ [char])) rest := by
        simp only [lexFrom, extend?, inside, if_true]
      rw [grows, grows]
      exact ih
    · rw [Bool.not_eq_true] at inside
      have ends (negative : Bool) : extend? before (.numeral negative digits) char = none := by
        simp [extend?, inside]
      rw [lexFrom_settle (ends false) inside, lexFrom_settle (ends true) inside, settle, settle, numeral,
        numeral]
      cases Reading.decimal? digits with
      | none => exact turns_of_errors rfl rfl
      | some decimal =>
        obtain ⟨items, read, read'⟩ | ⟨cause, cause', failed, failed', -, -⟩ :=
          @lexFrom_elsewhere .nothing _ _ rfl position place (char :: rest)
        · rw [read, read']
          exact turns_of_rows rfl (turns_literal _)
        · exact turns_of_errors (by rw [failed]; rfl) (by rw [failed']; rfl)

private theorem function_of_word (lexed : Lexed before (.word letters) text items) :
    ∃ f others, items = .function f :: others := by
  generalize word : Pending.word letters = pending at lexed
  induction lexed generalizing letters with
  | finish settled =>
    subst word
    cases settled
  | extend extended later ih =>
    subst word
    cases extended_of_extend? extended with
    | word _ letter => exact ih rfl
  | step ends settled started later ih =>
    subst word
    cases settled with
    | word _ f => exact ⟨f, _, rfl⟩

/-- What begins with no numeral and no sign begins with a function or with a symbol. -/
theorem starts_of_lex (noNumeral : isNumeralChar char = false) (noMinus : char ≠ '-')
    (read : lex (char :: rest) = .ok items) :
    (Text.isLetter char = true ∧ ∃ f others, items = .function f :: others) ∨
      ∃ lexeme others, symbol? char = some lexeme ∧ items = lexeme :: others := by
  cases lexed_of_lexFrom read with
  | extend extended =>
    cases extended_of_extend? extended with
    | first numeral => simp [noNumeral] at numeral
  | step ends settled started later =>
    cases settled
    cases started with
    | sign => exact absurd rfl noMinus
    | word letter => exact .inl ⟨letter, function_of_word later⟩
    | symbol known => exact .inr ⟨_, _, known, rfl⟩

/-- A minus in front of an operand that is no literal is an operator. In front of what is no
operand it is nothing. -/
theorem turns_symbol (noNumeral : isNumeralChar char = false) (noMinus : char ≠ '-') :
    Turns (lex (char :: rest)) (lex ('-' :: char :: rest)) := by
  have begun : lex ('-' :: char :: rest) = lexFrom (some '-') 1 .sign (char :: rest) := lexFrom_sign rfl
  rw [begun]
  by_cases argument : char = '(' ∨ Text.isLetter char = true
  · rw [lexFrom_negate argument noNumeral]
    obtain ⟨items, read, read'⟩ | ⟨cause, cause', failed, failed', -, -⟩ :=
      @lexFrom_elsewhere .nothing none (some '-') rfl 0 1 (char :: rest)
    · have row : turned items = some (.negate :: items) := by
        rcases starts_of_lex noNumeral noMinus read with ⟨-, f, others, rfl⟩ | ⟨lexeme, others, known, rfl⟩
        · rfl
        · obtain rfl := argument.resolve_right (by simp [(symbol_of_symbol? known).2])
          obtain rfl := Option.some.inj known
          rfl
      rw [lex, read, read']
      exact turns_of_rows row rfl
    · exact turns_of_errors failed (by rw [failed']; rfl)
  · have failed : lexFrom (some '-') 1 .sign (char :: rest) = .error (.danglingMinus 1) := by
      simp only [lexFrom, extend?, noNumeral, Bool.false_eq_true, if_false, noMinus, false_and, settle,
        argument]
      rfl
    refine turns_of_error (fun items read => ?_) failed
    rcases starts_of_lex noNumeral noMinus read with ⟨letter, -⟩ | ⟨lexeme, others, known, rfl⟩
    · exact absurd (.inr letter) argument
    · rcases symbol_cases known with ⟨rfl, -⟩ | ⟨-, rfl⟩ | ⟨-, rfl⟩ | ⟨operator, -, rfl⟩
      · exact absurd (.inl rfl) argument
      · rfl
      · rfl
      · rfl

/-- The induction is on the text, from sign to sign. Two signs in front of it cancel. -/
theorem turns_minus (text : List Char) : Turns (lex text) (lex ('-' :: text)) := by
  induction text with
  | nil => exact turns_of_error (by rintro _ ⟨⟩; rfl) rfl
  | cons char rest ih =>
    by_cases minus : char = '-'
    · subst minus
      have cancels : lex ('-' :: '-' :: rest) = lexFrom (some '-') 2 .nothing rest := lexFrom_pair rfl false
      refine ih.symm.congr fun row => ?_
      rw [cancels, lex, lexFrom_same]
      rfl
    by_cases inside : isNumeralChar char = true
    · have first : lex (char :: rest) = lexFrom (some char) 1 (.numeral false [char]) rest := by
        simp only [lex, lexFrom, extend?, inside, if_true]
      have second : lex ('-' :: char :: rest) = lexFrom (some char) 2 (.numeral true [char]) rest := by
        rw [lex, lexFrom_sign rfl]
        simp only [lexFrom, extend?, inside, if_true]
      rw [first, second]
      exact turns_numeral
    · exact turns_symbol (by simpa using inside) minus

end Reckon.Proofs.TurnedSign
