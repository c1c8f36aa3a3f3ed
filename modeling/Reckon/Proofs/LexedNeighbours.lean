import Reckon.Proofs.LexerSteps
import Reckon.Proofs.SentenceShape
import Reckon.Proofs.SettledText

/-! Neighbours in a text and neighbours among its lexemes. Two operands touch where one
ends in a character and the other one begins with the next. -/

namespace Reckon.Proofs.LexedNeighbours
open Lexer SentenceShape

def endsChar (char : Char) : Bool :=
  isNumeralChar char || char == ')' || char == '%'

def startsChar (char : Char) : Bool :=
  isNumeralChar char || char == '(' || Text.isLetter char

def Touch (left right : Char) : Prop :=
  endsChar left = true ∧ startsChar right = true ∧
    ¬ (isNumeralChar left = true ∧ isNumeralChar right = true)

/-- No operands touch in the text, nor at its beginning with what stands before it. -/
def Clear : Option Char → List Char → Prop
  | _, [] => True
  | before, char :: rest => (∀ left ∈ before, ¬ Touch left char) ∧ Clear (some char) rest

variable {before : Option Char} {position : Nat} {pending : Pending} {char : Char}
  {text rest : List Char} {items : List Lexeme} {ended : Bool}

inductive Settled : Pending → Option Char → List Lexeme → Prop
  | nothing {next? : Option Char} : Settled .nothing next? []
  | numeral (negative : Bool) (digits : List Char) (value : Float) {next? : Option Char} :
      Settled (.numeral negative digits) next? [.number value]
  | word (letters : List Char) (f : Function) : Settled (.word letters) (some '(') [.function f]
  | sign {char : Char} (opens : char = '(' ∨ Text.isLetter char = true) :
      Settled .sign (some char) [.negate]

theorem settled_of_settle {next? : Option Char} (passed : settle pending next? position = .ok items) :
    Settled pending next? items := by
  cases pending with
  | nothing =>
    obtain rfl := Except.ok.inj passed
    exact .nothing
  | numeral negative digits =>
    simp only [settle, numeral] at passed
    split at passed
    case h_1 =>
      obtain rfl := Except.ok.inj passed
      exact .numeral ..
    case h_2 => cases passed
  | word letters =>
    simp only [settle, word] at passed
    split at passed
    case h_1 => cases passed
    case h_2 f _ =>
      split at passed
      case isTrue called =>
        obtain rfl := Except.ok.inj passed
        exact called ▸ .word letters f
      case isFalse => cases passed
  | sign =>
    simp only [settle] at passed
    split at passed
    case h_1 => cases passed
    case h_2 char =>
      split at passed
      case isTrue opens =>
        obtain rfl := Except.ok.inj passed
        exact .sign opens
      case isFalse => cases passed

inductive Started : Option Char → Char → List Lexeme → Pending → Prop
  | sign {before : Option Char} (opens : opensOperand before = true) : Started before '-' [] .sign
  | word {before : Option Char} {char : Char} (letter : Text.isLetter char = true) :
      Started before char [] (.word [char])
  | symbol {before : Option Char} {char : Char} {lexeme : Lexeme} (known : symbol? char = some lexeme) :
      Started before char [lexeme] .nothing

theorem started_of_start {finished : List Lexeme} {begun : Pending}
    (passed : start before char position = .ok (finished, begun)) :
    Started before char finished begun := by
  unfold start at passed
  split at passed
  case isTrue sign =>
    obtain ⟨rfl, opens⟩ := sign
    obtain ⟨rfl, rfl⟩ := Prod.mk.inj (Except.ok.inj passed)
    exact .sign opens
  case isFalse =>
    split at passed
    case isTrue letter =>
      obtain ⟨rfl, rfl⟩ := Prod.mk.inj (Except.ok.inj passed)
      exact .word letter
    case isFalse =>
      split at passed
      case h_1 lexeme known =>
        obtain ⟨rfl, rfl⟩ := Prod.mk.inj (Except.ok.inj passed)
        exact .symbol known
      case h_2 => cases passed

inductive Extended : Option Char → Pending → Char → Pending → Prop
  | first {before : Option Char} {char : Char} (numeral : isNumeralChar char = true) :
      Extended before .nothing char (.numeral false [char])
  | signed {before : Option Char} {char : Char} (numeral : isNumeralChar char = true) :
      Extended before .sign char (.numeral true [char])
  | canceled {before : Option Char} (opens : opensOperand before = true) :
      Extended before .sign '-' .nothing
  | numeral {before : Option Char} {char : Char} (negative : Bool) (digits : List Char)
      (numeral : isNumeralChar char = true) :
      Extended before (.numeral negative digits) char (.numeral negative (digits ++ [char]))
  | word {before : Option Char} {char : Char} (letters : List Char) (letter : Text.isLetter char = true) :
      Extended before (.word letters) char (.word (letters ++ [char]))

theorem extended_of_extend? {grown : Pending} (extended : extend? before pending char = some grown) :
    Extended before pending char grown := by
  unfold extend? at extended
  split at extended
  case h_1 =>
    obtain ⟨numeral, ⟨⟩⟩ := Option.ite_none_right_eq_some.mp extended
    exact .first numeral
  case h_2 =>
    split at extended
    case isTrue numeral =>
      obtain rfl := Option.some.inj extended
      exact .signed numeral
    case isFalse =>
      obtain ⟨⟨rfl, opens⟩, ⟨⟩⟩ := Option.ite_none_right_eq_some.mp extended
      exact .canceled opens
  case h_3 =>
    obtain ⟨numeral, ⟨⟩⟩ := Option.ite_none_right_eq_some.mp extended
    exact .numeral _ _ numeral
  case h_4 =>
    obtain ⟨letter, ⟨⟩⟩ := Option.ite_none_right_eq_some.mp extended
    exact .word _ letter

/-- What the lexemes of the rest of a text may be. -/
inductive Lexed : Option Char → Pending → List Char → List Lexeme → Prop
  | finish {before : Option Char} {pending : Pending} {items : List Lexeme}
      (settled : Settled pending none items) : Lexed before pending [] items
  | extend {before : Option Char} {pending grown : Pending} {char : Char} {rest : List Char}
      {items : List Lexeme} (extended : extend? before pending char = some grown)
      (later : Lexed (some char) grown rest items) : Lexed before pending (char :: rest) items
  | step {before : Option Char} {pending begun : Pending} {char : Char} {rest : List Char}
      {first finished items : List Lexeme} (ends : extend? before pending char = none)
      (settled : Settled pending (some char) first) (started : Started before char finished begun)
      (later : Lexed (some char) begun rest items) :
      Lexed before pending (char :: rest) (first ++ finished ++ items)

theorem lexed_of_lexFrom (read : lexFrom before position pending text = .ok items) :
    Lexed before pending text items := by
  induction text generalizing before position pending items with
  | nil => exact .finish (settled_of_settle read)
  | cons char rest ih =>
    rw [lexFrom] at read
    split at read
    case h_1 grown extended => exact .extend extended (ih read)
    case h_2 ends =>
      obtain ⟨first, settled, read⟩ := bind_ok read
      obtain ⟨⟨finished, begun⟩, started, read⟩ := bind_ok read
      obtain ⟨others, later, read⟩ := bind_ok read
      obtain rfl := Except.ok.inj read
      exact .step ends (settled_of_settle settled) (started_of_start started) (ih later)

theorem symbol_cases {lexeme : Lexeme} (known : symbol? char = some lexeme) :
    (char = '(' ∧ lexeme = .opening) ∨ (char = ')' ∧ lexeme = .closing) ∨
      (char = '%' ∧ lexeme = .percent) ∨
      ∃ operator, BinaryOp.symbol operator = char ∧ lexeme = .binary operator := by
  unfold symbol? at known
  split at known
  case h_4 =>
    obtain ⟨operator, found, rfl⟩ := Option.map_eq_some_iff.mp known
    exact .inr (.inr (.inr ⟨operator, BinaryOp.symbol_of_ofSymbol? found, rfl⟩))
  all_goals
    obtain rfl := Option.some.inj known
    simp

/-- A function that was read has its argument behind it. -/
theorem called_of_lexed (lexed : Lexed before pending text items) :
    Called items ∧ (pending = .nothing → text.head? = some '(' → items.head? = some .opening) := by
  induction lexed with
  | finish settled =>
    cases settled with
    | nothing | numeral => exact ⟨trivial, by simp⟩
  | @extend before pending grown char rest items extended later ih =>
    refine ⟨ih.1, fun nothing head => ?_⟩
    obtain rfl : char = '(' := by simpa using head
    subst nothing
    cases extended
  | @step before pending begun char rest first finished items ends settled started later ih =>
    have calls : Called (finished ++ items) ∧
        (char = '(' → (finished ++ items).head? = some .opening) := by
      cases started with
      | sign => exact ⟨ih.1, by simp⟩
      | word letter =>
        refine ⟨ih.1, ?_⟩
        rintro rfl
        exact absurd letter (by decide)
      | symbol known =>
        rcases symbol_cases known with ⟨rfl, rfl⟩ | ⟨rfl, rfl⟩ | ⟨rfl, rfl⟩ | ⟨operator, rfl, rfl⟩
        · exact ⟨ih.1, fun _ => rfl⟩
        · exact ⟨ih.1, by simp⟩
        · exact ⟨ih.1, by simp⟩
        · exact ⟨ih.1, by cases operator <;> simp [BinaryOp.symbol]⟩
    rw [List.append_assoc]
    cases settled with
    | nothing => exact ⟨calls.1, fun _ head => calls.2 (by simpa using head)⟩
    | numeral | sign => exact ⟨calls.1, fun nothing => nomatch nothing⟩
    | word letters f => exact ⟨⟨calls.2 rfl, calls.1⟩, fun nothing => nomatch nothing⟩

def isOperand : Pending → Bool
  | .numeral .. | .word _ => true
  | .nothing | .sign => false

inductive Fits (ended : Bool) : Option Char → Pending → Prop
  | nothing {before : Option Char} (same : ended = before.any endsChar)
      (apart : ∀ left ∈ before, isNumeralChar left = false) : Fits ended before .nothing
  | sign (fresh : ended = false) : Fits ended (some '-') .sign
  | numeral {left : Char} (negative : Bool) (digits : List Char)
      (numeral : isNumeralChar left = true) : Fits ended (some left) (.numeral negative digits)
  | word {left : Char} (letters : List Char) (letter : Text.isLetter left = true) :
      Fits ended (some left) (.word letters)

theorem noNumeral_of_letter (letter : Text.isLetter char = true) :
    isNumeralChar char = false ∧ endsChar char = false := by
  have noNumeral : isNumeralChar char = false := by
    rw [← Bool.not_eq_true]
    intro numeral
    simp only [isNumeralChar, Bool.or_eq_true, beq_iff_eq] at numeral
    rcases numeral with digit | rfl
    · have noDigit := Text.isDigit_of_letter letter
      rw [Text.isDigit_of_ascii digit] at noDigit
      cases noDigit
    · exact absurd letter (by decide)
  have noClosing : char ≠ ')' := by
    rintro rfl
    exact absurd letter (by decide)
  have noPercent : char ≠ '%' := by
    rintro rfl
    exact absurd letter (by decide)
  exact ⟨noNumeral, by simp [endsChar, noNumeral, noClosing, noPercent]⟩

private theorem noEnd_of_opensOperand (opens : opensOperand before = true) :
    before.any endsChar = false := by
  cases before with
  | none => rfl
  | some left =>
    simp only [opensOperand, Bool.or_eq_true, beq_iff_eq, Option.isSome_iff_exists] at opens
    rcases opens with ⟨operator, found⟩ | rfl
    · rw [← BinaryOp.symbol_of_ofSymbol? found]
      cases operator <;> decide
    · decide

private theorem touch_iff (fresh : isNumeralChar char = false) :
    (∀ left ∈ before, ¬ Touch left char) ↔ ¬ (before.any endsChar = true ∧ startsChar char = true) := by
  cases before with
  | none => simp
  | some left => simp [Touch, fresh]

private theorem apart_started {begun : Pending} {finished : List Lexeme}
    (started : Started before char finished begun)
    (later : ∀ ended, Fits ended (some char) begun →
      (Apart ended items ↔ (isOperand begun = true → ended = false) ∧ Clear (some char) rest)) :
    Apart (before.any endsChar) (finished ++ items) ↔ Clear before (char :: rest) := by
  cases started with
  | sign opens =>
    have noStart : startsChar '-' = false := by decide
    rw [noEnd_of_opensOperand opens, List.nil_append, later false (.sign rfl), Clear,
      touch_iff (by decide)]
    simp [isOperand, noStart]
  | word letter =>
    rw [List.nil_append, later _ (.word _ letter), Clear, touch_iff (noNumeral_of_letter letter).1]
    simp [isOperand, startsChar, letter]
  | @symbol _ lexeme known =>
    have chars : lexeme.ends = endsChar char ∧ lexeme.starts = startsChar char ∧
        isNumeralChar char = false := by
      rcases symbol_cases known with ⟨rfl, rfl⟩ | ⟨rfl, rfl⟩ | ⟨rfl, rfl⟩ | ⟨operator, rfl, rfl⟩
      · decide
      · decide
      · decide
      · cases operator <;> decide
    obtain ⟨sameEnd, sameStart, fresh⟩ := chars
    rw [List.singleton_append, Apart, Clear, touch_iff fresh, sameStart,
      later _ (.nothing sameEnd (by simpa using fresh))]
    simp [isOperand]

private theorem apart_extended {grown : Pending} (extended : Extended before pending char grown)
    (fits : Fits ended before pending)
    (later : ∀ ended, Fits ended (some char) grown →
      (Apart ended items ↔ (isOperand grown = true → ended = false) ∧ Clear (some char) rest)) :
    Apart ended items ↔ (isOperand pending = true → ended = false) ∧ Clear before (char :: rest) := by
  have noEnd : endsChar '-' = false := by decide
  cases extended with
  | first numeral =>
    cases fits with
    | nothing same apart =>
      have touches : (∀ left ∈ before, ¬ Touch left char) ↔ ended = false := by
        cases before with
        | none => simp [same]
        | some left => simp [Touch, startsChar, numeral, same, apart left rfl]
      rw [later _ (.numeral _ _ numeral), Clear, touches]
      simp [isOperand]
  | signed numeral =>
    cases fits with
    | sign fresh =>
      rw [later _ (.numeral _ _ numeral), Clear]
      simp [isOperand, fresh, Touch, noEnd]
  | canceled =>
    cases fits with
    | sign fresh =>
      rw [later _ (.nothing (by rw [fresh]; decide) (by simp; decide)), Clear]
      simp [isOperand, Touch, noEnd]
  | numeral negative digits numeral' =>
    cases fits with
    | numeral _ _ numeral =>
      rw [later _ (.numeral _ _ numeral'), Clear]
      simp [isOperand, Touch, numeral, numeral']
  | word letters letter' =>
    cases fits with
    | word _ letter =>
      rw [later _ (.word _ letter'), Clear]
      simp [isOperand, Touch, (noNumeral_of_letter letter).2]

/-- Operands touch among the lexemes where they touch in the text. -/
theorem apart_iff_clear (lexed : Lexed before pending text items) (fits : Fits ended before pending) :
    Apart ended items ↔ (isOperand pending = true → ended = false) ∧ Clear before text := by
  induction lexed generalizing ended with
  | finish settled =>
    cases settled with
    | nothing => simp [Apart, isOperand, Clear]
    | numeral => simp [Apart, isOperand, Clear, Lexeme.starts]
  | @extend before pending grown char rest items extended later ih =>
    exact apart_extended (extended_of_extend? extended) fits fun ended fits => ih fits
  | @step before pending begun char rest first finished items ends settled started later ih =>
    have next := apart_started started fun ended fits => ih fits
    rw [List.append_assoc]
    cases settled with
    | nothing =>
      cases fits with
      | nothing same apart =>
        subst same
        simpa [isOperand] using next
    | numeral negative digits value =>
      cases fits with
      | numeral _ _ numeral =>
        simp [endsChar, numeral] at next
        simp [Apart, isOperand, Lexeme.starts, Lexeme.ends, next]
    | word letters f =>
      cases fits with
      | word _ letter =>
        simp [(noNumeral_of_letter letter).2] at next
        simp [Apart, isOperand, Lexeme.starts, Lexeme.ends, next]
    | sign opens =>
      cases fits with
      | sign fresh =>
        have fresh' : (some '-').any endsChar = false := by decide
        rw [fresh'] at next
        simp [Apart, isOperand, Lexeme.starts, Lexeme.ends, next, fresh]

end Reckon.Proofs.LexedNeighbours
