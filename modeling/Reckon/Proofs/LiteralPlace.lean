import Reckon.Proofs.LiteralPower
import Reckon.Proofs.Scanning
import Reckon.Proofs.TextParts

/-! A literal in the middle of a text. It is read as one number wherever it stands, with a
sign if one is begun, and what is read before it awaits an operand or fails. -/

namespace Reckon.Text

private theorem isDigit_of_lt {char : Char} (ascii : char.toNat < 128) (digit : isDigit char = true) :
    char.isDigit = true := by
  obtain ⟨value, found⟩ := Option.isSome_iff_exists.mp digit
  obtain ⟨start, known, -⟩ := Option.map_eq_some_iff.mp found
  have near := List.find?_some known
  have member := List.mem_of_find?_eq_some known
  have starts : ∀ start ∈ digitZeros, start = 48 ∨ 1632 ≤ start := by decide
  have low := starts start member
  simp only [Bool.and_eq_true, decide_eq_true_eq] at near
  have bounds : 48 ≤ char.toNat ∧ char.toNat ≤ 57 := by omega
  simpa [Char.isDigit, UInt32.le_iff_toNat_le] using bounds

end Reckon.Text

namespace Reckon.Proofs.LiteralPlace
open Entry Lexer LexedNeighbours LiteralPower LiteralReading NumeralText Scanning

variable {digits base left right rest : List Char} {value x : Float} {before : Option Char}
  {char : Char} {position : Nat} {items : List Lexeme} {last : Pending}

theorem isPlain_of_ascii (numeral : IsNumeral base) (ascii : ∀ char ∈ base, char.toNat < 128) :
    IsPlain base := by
  refine isPlain_of_isNumeral numeral fun char member => ?_
  simp only [isNumeralChar, Bool.or_eq_true, beq_iff_eq]
  exact (numeral.chars char member).imp_left (Text.isDigit_of_lt (ascii char member))

theorem isLiteral_of_isPlain (plain : IsPlain base) : IsLiteral base (numeralValue base) := by
  obtain ⟨whole, fraction, rfl, spells⟩ := plain
  refine ⟨fun char member => ?_, ?_⟩
  · simpa [isNumeralChar] using spells.chars char member
  · rw [numeralValue, spells.decimal?]
    rfl

theorem isPlain_literalText (finite : x.isFinite = true) (positive : isNegative x = false) :
    IsPlain (literalText x) ∧ IsLiteral (literalText x) x := by
  obtain ⟨whole, fraction, decimal, text, spells, reads, back⟩ := literalText_spec finite
  rw [positive, if_neg Bool.false_ne_true] at back
  rw [signMark, positive, if_neg Bool.false_ne_true, List.nil_append] at text
  rw [text]
  refine ⟨⟨whole, fraction, rfl, spells⟩, fun char member => ?_, ?_⟩
  · simpa [isNumeralChar] using spells.chars char member
  · rw [reads, Option.map_some, back]

theorem inert_plain (plain : IsPlain base) :
    fillGaps productGap base = base ∧ fillGaps emptyGap base = base := by
  have chars : ∀ char ∈ base, char ∈ numeralChars :=
    fun char member => mem_of_isNumeralChar ((isLiteral_of_isPlain plain).chars char member)
  have chain := chain_numerals chars
  have products := @fillGaps_append productGap base [] (chain.imp fun _ _ => SettledText.Settles.product)
    (by simp)
  have zeros := @fillGaps_append emptyGap base [] (chain.imp fun _ _ => SettledText.Settles.empty)
    (by simp)
  have nothing (gap : Char → Char → List Char) : fillGaps gap [] = [] := rfl
  rw [nothing, List.append_nil] at products zeros
  exact ⟨products, zeros⟩

theorem signs_of_isPlain (plain : IsPlain base) : '^' ∉ base ∧ '%' ∉ base := by
  have chars := (isLiteral_of_isPlain plain).chars
  exact ⟨fun member => absurd (chars _ member) (by decide), fun member => absurd (chars _ member) (by decide)⟩

theorem ends_plain (plain : IsPlain base) :
    (∃ digit, base.head? = some digit ∧ digit.isDigit = true) ∧
      ∃ digit, base.getLast? = some digit ∧ digit.isDigit = true := by
  have chars := (isLiteral_of_isPlain plain).chars
  constructor
  · obtain ⟨whole, fraction, rfl, spells⟩ := plain
    obtain ⟨digit, others, rfl⟩ := List.exists_cons_of_ne_nil spells.filled
    exact ⟨digit, rfl, spells.digits digit (by simp)⟩
  · obtain ⟨digit, final, inside⟩ := (isNumeral_of_isPlain plain).getLast?
    exact ⟨digit, final, isDigit_ascii (chars digit (List.mem_of_getLast? final)) inside⟩

theorem product_before (digit : char.isDigit = true) (last? : Option Char) :
    product last? (some char) = if last? = some ')' then ['*'] else [] := by
  have digit' := Text.isDigit_of_ascii digit
  have noParenthesis : char ≠ '(' := by
    rintro rfl
    exact absurd digit (by decide)
  have noLetter := Text.isLetter_of_digit digit'
  cases last? <;> simp [product, bridge, productGap, digit', noParenthesis, noLetter]

theorem product_behind (digit : char.isDigit = true) (next? : Option Char) :
    product (some char) next? =
      if next?.any (fun next => next == '(' || Text.isLetter next) then ['*'] else [] := by
  have digit' := Text.isDigit_of_ascii digit
  have noParenthesis : char ≠ ')' := by
    rintro rfl
    exact absurd digit (by decide)
  cases next? <;> simp [product, bridge, productGap, digit', noParenthesis]

def signed (negative : Bool) (value : Float) : Float :=
  if negative then -value else value

private theorem scan_digits (before : Option Char) (position : Nat) (negative : Bool) (digits : List Char)
    {more : List Char} (inside : ∀ char ∈ more, isNumeralChar char = true) :
    scan before position (.numeral negative digits) more = .ok ([], .numeral negative (digits ++ more)) := by
  induction more generalizing before position digits with
  | nil => rw [scan, List.append_nil]
  | cons char more ih =>
    rw [List.forall_mem_cons] at inside
    rw [scan, extend?, if_pos inside.1]
    simp only
    rw [ih _ _ _ inside.2, List.append_assoc, List.singleton_append]

/-- A literal is read as one number, with the sign that is begun. -/
theorem lexFrom_literal (literal : IsLiteral digits value) (negative : Bool)
    (stops : ∀ char ∈ rest.head?, isNumeralChar char = false) :
    lexFrom before position (begun negative) (digits ++ rest) =
      ([.number (signed negative value)] ++ ·) <$>
        lexFrom digits.getLast? (position + digits.length) .nothing rest := by
  obtain ⟨first, more, rfl⟩ := List.exists_cons_of_ne_nil literal.filled
  have inside := literal.chars
  rw [List.forall_mem_cons] at inside
  have scanned : scan before position (begun negative) (first :: more) =
      .ok ([], .numeral negative (first :: more)) := by
    have extended : extend? before (begun negative) first = some (.numeral negative [first]) := by
      cases negative <;> simp [begun, extend?, inside.1]
    rw [scan, extended]
    exact scan_digits _ _ _ _ inside.2
  have final : (first :: more).getLast?.or before = (first :: more).getLast? := by
    simp [List.getLast?_cons]
  have read := literal.numeral negative
  rw [lexFrom_append, scanned, final]
  generalize (first :: more).getLast? = beside
  generalize position + (first :: more).length = place
  have passed (outcome : Except Cause (List Lexeme)) : ([] ++ ·) <$> outcome = outcome := by
    cases outcome <;> rfl
  show ([] ++ ·) <$> lexFrom beside place (.numeral negative (first :: more)) rest = _
  rw [passed]
  cases rest with
  | nil =>
    rw [lexFrom, settle, read]
    rfl
  | cons char rest =>
    have fresh := stops char rfl
    rw [lexFrom_settle (by simp [extend?, fresh]) fresh, settle, read]
    rfl

end Reckon.Proofs.LiteralPlace
