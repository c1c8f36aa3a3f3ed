import Reckon.Proofs.LexerSteps
import Reckon.Proofs.LiteralReading
import Reckon.Proofs.SettledText

/-! The text of a literal. Its characters stand in parentheses and around a power sign
without anything being left to do. -/

namespace Reckon.Proofs.NumeralText
open Entry Lexer SettledText LiteralReading

/-- The characters of a list are gone through, and not all the characters there are. -/
instance (priority := 2000) decidableForallMem (chars : List Char) (p : Char → Prop) [DecidablePred p] :
    Decidable (∀ char ∈ chars, p char) :=
  List.decidableBAll p chars

instance (priority := 2000) decidableForallMem? (char? : Option Char) (p : Char → Prop) [DecidablePred p] :
    Decidable (∀ char ∈ char?, p char) :=
  Option.decidableForallMem char?

def numeralChars : List Char :=
  ['0', '1', '2', '3', '4', '5', '6', '7', '8', '9', '.', '-']

private theorem mem_numeralChars {char : Char} (digit : char.isDigit = true) : char ∈ numeralChars := by
  have bounds : 48 ≤ char.toNat ∧ char.toNat < 58 := by
    simp only [Char.isDigit, Bool.and_eq_true, decide_eq_true_eq, ge_iff_le, UInt32.le_iff_toNat_le]
      at digit
    exact ⟨digit.1, Nat.lt_succ_of_le digit.2⟩
  obtain ⟨least, most⟩ := bounds
  have same := Char.ofNat_toNat char
  generalize char.toNat = code at least most same
  subst same
  interval_cases code <;> decide

theorem mem_of_isNumeralChar {char : Char} (numeral : isNumeralChar char = true) :
    char ∈ numeralChars := by
  simp only [isNumeralChar, Bool.or_eq_true, beq_iff_eq] at numeral
  rcases numeral with digit | rfl
  · exact mem_numeralChars digit
  · decide

variable {digits text : List Char} {x : Float}

theorem mem_signedText (negative : Bool) (chars : ∀ char ∈ digits, isNumeralChar char = true) :
    ∀ char ∈ signedText negative digits, char ∈ numeralChars := by
  intro char member
  unfold signedText at member
  split at member
  · rcases List.mem_cons.mp member with rfl | inside
    · decide
    · exact mem_of_isNumeralChar (chars char inside)
  · exact mem_of_isNumeralChar (chars char member)

/-- An unsigned literal as the reader takes it, where a point may stand at an end. -/
structure IsLiteral (text : List Char) (value : Float) : Prop where
  chars : ∀ char ∈ text, isNumeralChar char = true
  reads : (Reading.decimal? text).map Decimal.toFloat = some value

variable {value : Float}

theorem IsLiteral.filled (literal : IsLiteral text value) : text ≠ [] := by
  rintro rfl
  have reads := literal.reads
  simp [Reading.decimal?, Reading.splitDigits, List.span, List.span.loop] at reads

theorem IsLiteral.numeralValue (literal : IsLiteral text value) : numeralValue text = value := by
  rw [Entry.numeralValue, literal.reads, Option.getD_some]

theorem IsLiteral.numeral (literal : IsLiteral text value) (negative : Bool) :
    numeral negative text = .ok [.number (if negative then -value else value)] := by
  obtain ⟨decimal, read, rfl⟩ := Option.map_eq_some_iff.mp literal.reads
  rw [Lexer.numeral, read]

/-- The text of a finite number is a literal with the sign of the number. -/
theorem literalText_signed (finite : x.isFinite = true) :
    ∃ digits value, literalText x = signedText (isNegative x) digits ∧ IsLiteral digits value ∧
      (if isNegative x then -value else value) = x := by
  obtain ⟨whole, fraction, decimal, written, spells, reads, back⟩ := literalText_spec finite
  refine ⟨whole ++ Decimal.fraction fraction, decimal.toFloat, ?_, ⟨?_, by rw [reads]; rfl⟩, back⟩
  · rw [written, signMark, signedText]
    split <;> rfl
  · intro char member
    simpa [isNumeralChar] using spells.chars char member

theorem literalText_chars (finite : x.isFinite = true) :
    ∀ char ∈ literalText x, char ∈ numeralChars := by
  obtain ⟨digits, value, written, literal, -⟩ := literalText_signed finite
  rw [written]
  exact mem_signedText _ literal.chars

/-- What a number is written with, if it may be no finite one. -/
theorem mem_literalText (x : Float) :
    literalText x ≠ [] ∧ ∀ char ∈ literalText x, char ∈ numeralChars ∨ char ∈ ['i', 'n', 'f', 'a'] := by
  rcases literalText_cases x with name | ⟨whole, fraction, written, spells⟩
  · have names : ∀ name ∈ specialNames, name ≠ [] ∧
        ∀ char ∈ name, char ∈ numeralChars ∨ char ∈ ['i', 'n', 'f', 'a'] := by decide
    exact names _ name
  · refine ⟨by simp [written, spells.filled], fun char member => .inl ?_⟩
    rw [written, signMark] at member
    rcases List.mem_append.mp member with sign | inside
    · split at sign
      · rw [List.mem_singleton.mp sign]
        decide
      · cases sign
    · exact mem_of_isNumeralChar (by simpa [isNumeralChar] using spells.chars char inside)

structure Settled (char : Char) : Prop where
  kept : Kept char
  inside : ∀ other ∈ numeralChars, Settles char other
  opened : Settles '(' char
  closed : Settles char ')'
  base : Settles char '^'
  exponent : Settles '^' char
  free : Text.isFoldedLetter char = false ∧ char ≠ '%'
  plain : char ≠ '^' ∧ char ≠ '(' ∧ char ≠ ')'

theorem settled_numerals (char : Char) (member : char ∈ numeralChars) : Settled char := by
  constructor <;> revert char <;> decide

theorem chain_numerals (chars : ∀ char ∈ text, char ∈ numeralChars) : text.IsChain Settles := by
  refine (List.pairwise_of_forall_mem_list fun left member right member' => ?_).isChain
  exact (settled_numerals left (chars left member)).inside right (chars right member')

theorem noPower_numerals (chars : ∀ char ∈ text, char ∈ numeralChars) : '^' ∉ text :=
  fun member => (settled_numerals '^' (chars '^' member)).plain.1 rfl

theorem normalize_numerals (chars : ∀ char ∈ text, char ∈ numeralChars) : normalize text = text := by
  refine normalize_eq_self (fun char member => (settled_numerals char (chars char member)).kept)
    (chain_numerals chars) ?_
    fun last found => (settled_numerals last (chars last (List.mem_of_getLast? found))).free
  refine (List.pairwise_of_forall_mem_list fun _ _ right member _ => ?_).isChain
  exact (settled_numerals right (chars right member)).plain.1

end Reckon.Proofs.NumeralText
