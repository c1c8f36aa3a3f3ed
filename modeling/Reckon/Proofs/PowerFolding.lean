import Reckon.Proofs.ExchangedParts
import Reckon.Proofs.LiteralPlace

/-! Computing the powers of literals in the text. The value is written where the power
stood, and what is read there acts on the machine as the power would. -/

namespace Reckon.Proofs.PowerFolding
open Entry Lexer Polish Arranging ExchangedParts LexedNeighbours LiteralPlace LiteralPower NumeralText PowerSign
  Precedence Scanning

variable {left right base exponent : List Char} {mode : AngleMode} {items rest stack : List Lexeme}
  {last : Pending}

/-- No minus that ends the text is a sign. -/
def Unsigned (text : List Char) : Prop :=
  ∀ front, text = front ++ ['-'] → opensOperand front.getLast? = false

def before (left : List Char) : List Char :=
  written left ++ if left.getLast? = some ')' then ['*'] else []

theorem before_of_ne (open? : left.getLast? ≠ some ')') : before left = written left := by
  rw [before, if_neg open?, List.append_nil]

private theorem unsigned_written (unsigned : Unsigned left) : Unsigned (written left) := by
  intro front parts
  have ends : left.getLast? = some '-' := by rw [← getLast?_written, parts, List.getLast?_concat]
  obtain ⟨others, rfl⟩ := List.getLast?_eq_some_iff.mp ends
  rw [written_minus] at parts
  obtain ⟨rfl, -⟩ := List.append_inj' parts rfl
  rw [getLast?_written]
  exact unsigned others rfl

/-- Behind such a symbol an operand is awaited, and not an exponent. -/
private theorem awaits_of_symbol {front : List Char} {char : Char} {lexeme : Lexeme}
    (scanned : scan none 0 .nothing (front ++ [char]) = .ok (items, last))
    (known : symbol? char = some lexeme) (noSign : char = '-' → opensOperand front.getLast? = false)
    (noClosing : char ≠ ')') (noPercent : char ≠ '%') (noPower : char ≠ '^') :
    last = .nothing ∧ ∀ final ∈ items.getLast?, final = .opening ∨
      ∃ operator, final = .binary operator ∧ operator ≠ .power := by
  obtain ⟨rfl, final⟩ := scan_symbol scanned known (by rwa [Option.or_none])
  refine ⟨rfl, ?_⟩
  rw [final]
  rintro _ ⟨⟩
  rcases symbol_cases known with ⟨-, rfl⟩ | ⟨closing, -⟩ | ⟨sign, -⟩ | ⟨operator, same, rfl⟩
  · exact .inl rfl
  · exact absurd closing noClosing
  · exact absurd sign noPercent
  · refine .inr ⟨operator, rfl, ?_⟩
    rintro rfl
    exact noPower same.symm

/-- What is read before a power of literals awaits an operand, and not an exponent. -/
theorem scan_before (apart : ¬ (left.getLast? = some '^' ∨ touchesNumeral left.getLast? = true))
    (unsigned : Unsigned left) (noPercent : '%' ∉ left)
    (scanned : scan none 0 .nothing (before left) = .ok (items, last)) :
    (∃ letters, last = .word letters) ∨
      last = .nothing ∧ ∀ final ∈ items.getLast?, final = .opening ∨
        ∃ operator, final = .binary operator ∧ operator ≠ .power := by
  by_cases closed : left.getLast? = some ')'
  · rw [before, if_pos closed] at scanned
    have times : symbol? '*' = some (.binary .multiply) := rfl
    exact .inr (awaits_of_symbol scanned times (fun same => absurd same (by decide)) (by decide)
      (by decide) (by decide))
  rw [before_of_ne closed] at scanned
  rcases List.eq_nil_or_concat' (written left) with empty | ⟨front, char, parts⟩
  · rw [empty] at scanned
    obtain ⟨rfl, rfl⟩ := Prod.mk.inj (Except.ok.inj scanned)
    exact .inr ⟨rfl, by simp⟩
  have ends : left.getLast? = some char := by rw [← getLast?_written, parts, List.getLast?_concat]
  rw [parts] at scanned
  cases known : symbol? char with
  | none =>
    have noNumeral : isNumeralChar char = false := by
      rw [← Bool.not_eq_true]
      intro numeral
      exact apart (.inr (ends ▸ touchesNumeral_of_char numeral))
    have noSign : char ≠ '-' := by
      rintro rfl
      cases known
    obtain ⟨read, middle, added, -, steps, -⟩ := scan_concat scanned
    rcases steps.sign_or_word_or_symbol noNumeral with
      ⟨minus, -⟩ | ⟨-, word⟩ | ⟨settled, lexeme, known', -⟩
    · exact absurd minus noSign
    · exact .inl word
    · simp [known] at known'
  | some lexeme =>
    refine .inr (awaits_of_symbol scanned known ?_ ?_ ?_ ?_) <;> rintro rfl
    · exact unsigned_written unsigned front parts
    · exact closed ends
    · exact noPercent (List.mem_of_getLast? ends)
    · exact apart (.inl ends)

def behind (right : List Char) : List Char :=
  (if right.head?.any (fun next => next == '(' || Text.isLetter next) then ['*'] else []) ++ written right

private theorem head?_behind (ends : touchesNumeral right.head? = false) (char : Char)
    (head : (behind right).head? = some char) :
    isNumeralChar char = false ∧ Text.isLetter char = false ∧ char ≠ '(' ∧ (char = '%' → '%' ∈ right) := by
  unfold behind at head
  split at head
  case isTrue =>
    obtain rfl := Option.some.inj head
    exact ⟨by decide, by decide, by decide, fun same => absurd same (by decide)⟩
  case isFalse operand =>
    rw [List.nil_append, head?_written] at head
    rw [head] at ends operand
    simp only [Option.any_some, Bool.or_eq_true, beq_iff_eq, not_or, Bool.not_eq_true] at operand
    refine ⟨?_, operand.2, operand.1, fun same => same ▸ List.mem_of_mem_head? head⟩
    rw [← Bool.not_eq_true]
    intro numeral
    rw [touchesNumeral_of_char numeral] at ends
    cases ends

private theorem closed_plain (plain : IsPlain base) : opensOperand base.getLast? = false := by
  obtain ⟨-, digit, final, inside⟩ := ends_plain plain
  rw [final, ← Bool.not_eq_true]
  intro opens
  obtain ⟨lexeme, known, -⟩ := exists_symbol opens
  have noNumeral := (symbol_of_symbol? known).1
  simp [isNumeralChar, inside] at noNumeral

theorem readAs_literal {value : Float} (plain : IsPlain base) (literal : IsLiteral base value)
    (negative : Bool) (stops : ∀ char ∈ right.head?, isNumeralChar char = false) :
    ReadAs left (begun negative) base right [.number (signed negative value)] :=
  ⟨_, _, closed_plain plain, lexFrom_literal literal negative stops⟩

private theorem readAs_power (plain : IsPlain base) (plain' : IsPlain exponent)
    (stops : ∀ char ∈ right.head?, isNumeralChar char = false) :
    ReadAs left .nothing (base ++ '^' :: exponent) right
      [.number (numeralValue base), .binary .power, .number (numeralValue exponent)] := by
  have known : symbol? '^' = some (.binary .power) := rfl
  have sign : ∀ char ∈ ('^' :: (exponent ++ right)).head?, isNumeralChar char = false := by
    rintro _ ⟨⟩
    decide
  have first := @lexFrom_literal _ _ _ left.getLast? left.length (isLiteral_of_isPlain plain) false sign
  have second := @lexFrom_literal _ _ _ (some '^') (left.length + base.length + 1)
    (isLiteral_of_isPlain plain') false stops
  refine ⟨_, left.length + base.length + 1 + exponent.length, closed_plain plain', ?_⟩
  show lexFrom _ _ (begun false) _ = _
  rw [List.append_assoc, List.cons_append, first, lexFrom_symbol known fun same => absurd same (by decide)]
  show ([_] ++ ·) <$> (_ :: ·) <$> lexFrom _ _ (begun false) _ = _
  rw [second]
  generalize lexFrom exponent.getLast? _ _ right = outcome
  cases outcome <;> rfl

/-- The power leaves before whatever follows it, and computes what is written for it. -/
theorem sends_power {first second : Float} (calm : ∀ top ∈ stack.head?, top = .opening ∨
      ∃ operator, top = .binary operator ∧ operator ≠ .power)
    (leaves : ∀ next ∈ rest.head?, next = .closing ∨ ∃ operator, next = .binary operator) :
    Sends stack [.number first, .binary .power, .number second] rest
      [.number first, .number second, .binary .power] := by
  have clear : Clear Lexeme.role 3 stack := by
    intro top found
    rcases calm top found with rfl | ⟨operator, rfl, other⟩
    · decide
    · cases operator <;> first | exact absurd rfl other | decide
  have joined : Leaves 3 3 ([Lexeme.number first] ++ .binary .power :: [Lexeme.number second])
      ([Lexeme.number first] ++ [] ++ [Lexeme.number second]) ([] ++ [Lexeme.binary .power]) :=
    (Leaves.number first).join .power (.number second) (by decide) (by decide) (by decide) (by decide)
      (by decide) (by decide)
  refine sends_waiting joined clear fun next head => ?_
  rcases leaves next head with closing | ⟨operator, rfl⟩
  · exact .inl closing
  · refine .inr ⟨operator, rfl, ?_⟩
    cases operator <;> decide

private theorem sameEffect_power (first second : Float) :
    SameEffect mode [.number first, .number second, .binary .power] [.number (power first second)] :=
  fun _ => rfl

private theorem complete_eq_written {text : List Char} (noPercent : '%' ∉ text) : complete text = written text := by
  have never : ∀ before rest, rest <:+ text → percentPattern before rest = none := by
    intro before rest inside
    cases matched : percentPattern before rest with
    | none => rfl
    | some found =>
      obtain ⟨numeral, others, rfl, -⟩ := percentPattern_eq_some_iff.mp matched
      exact absurd (inside.subset (by simp)) noPercent
  rw [complete_eq, foldPercents, substitute, substituteFrom_eq_self never]

private theorem inert_power (plain : IsPlain base) (plain' : IsPlain exponent) :
    fillGaps productGap (base ++ '^' :: exponent) = base ++ '^' :: exponent ∧
      fillGaps emptyGap (base ++ '^' :: exponent) = base ++ '^' :: exponent := by
  obtain ⟨products, zeros⟩ := inert_plain plain
  obtain ⟨products', zeros'⟩ := inert_plain plain'
  have noOperand : Text.isDigit '^' = false ∧ Text.isLetter '^' = false := by decide
  have quiet (gap : Char → Char → List Char) (none : ∀ char, gap char '^' = [] ∧ gap '^' char = [])
      (last? next? : Option Char) : bridge gap last? (some '^') = [] ∧ bridge gap (some '^') next? = [] := by
    cases last? <;> cases next? <;> simp [bridge, none]
  have product := quiet productGap fun char => by simp [productGap, noOperand]
  have zero := quiet emptyGap fun char => by simp [emptyGap]
  constructor
  · rw [fillGaps_parts, fillGaps_cons, List.head?_cons, (product _ none).1, (product none _).2, products,
      products']
    rfl
  · rw [fillGaps_parts, fillGaps_cons, List.head?_cons, (zero _ none).1, (zero none _).2, zeros, zeros']
    rfl

/-- A text that reads as an operand from its first digit to its last, and in which nothing
is left to complete. -/
structure IsOperand (middle : List Char) : Prop where
  inert : fillGaps productGap middle = middle ∧ fillGaps emptyGap middle = middle
  first : ∃ digit, middle.head? = some digit ∧ digit.isDigit = true
  final : ∃ digit, middle.getLast? = some digit ∧ digit.isDigit = true
  noPercent : '%' ∉ middle

private theorem isOperand_plain (plain : IsPlain base) : IsOperand base where
  inert := inert_plain plain
  first := (ends_plain plain).1
  final := (ends_plain plain).2
  noPercent := (signs_of_isPlain plain).2

private theorem isOperand_power (plain : IsPlain base) (plain' : IsPlain exponent) :
    IsOperand (base ++ '^' :: exponent) where
  inert := inert_power plain plain'
  first := by
    obtain ⟨⟨digit, head, inside⟩, -⟩ := ends_plain plain
    exact ⟨digit, by simp [head], inside⟩
  final := by
    obtain ⟨-, digit, final, inside⟩ := ends_plain plain'
    exact ⟨digit, by simp [List.getLast?_cons, final], inside⟩
  noPercent := by simp [(signs_of_isPlain plain).2, (signs_of_isPlain plain').2]

namespace IsOperand

variable {middle : List Char}

theorem complete (operand : IsOperand middle) (noPercent : '%' ∉ left) (noPercent' : '%' ∉ right) :
    Entry.complete (left ++ (middle ++ right)) = before left ++ (middle ++ behind right) := by
  obtain ⟨inert, ⟨digit, head, inside⟩, ⟨digit', end', inside'⟩, none⟩ := operand
  have filled : middle ≠ [] := by
    rintro rfl
    cases head
  have noClosing : middle.head? ≠ some ')' := by
    rw [head]
    rintro ⟨⟩
    exact absurd inside (by decide)
  have noOpening : middle.getLast? ≠ some '(' := by
    rw [end']
    rintro ⟨⟩
    exact absurd inside' (by decide)
  rw [complete_eq_written (by simp [noPercent, noPercent', none]),
    written_middle filled inert.1 inert.2 noClosing noOpening, head, end', product_before inside,
    product_behind inside', before, behind]

theorem head? (operand : IsOperand middle) (others : List Char) :
    ∀ char ∈ (middle ++ others).head?, Text.isLetter char = false ∧ char ≠ '(' := by
  obtain ⟨digit, head, inside⟩ := operand.first
  obtain ⟨rest, rfl⟩ := List.head?_eq_some_iff.mp head
  rintro char ⟨⟩
  refine ⟨Text.isLetter_of_digit (Text.isDigit_of_ascii inside), ?_⟩
  rintro rfl
  exact absurd inside (by decide)

end IsOperand

private theorem follows_operand (ends : touchesNumeral right.head? = false) (noPercent : '%' ∉ right)
    (later : Behind (behind right) rest) :
    ∀ next ∈ rest.head?, next = .closing ∨ ∃ operator, next = .binary operator := by
  intro next head
  have fresh := head?_behind ends
  have goes := follows_of_behind later (fun char found => ⟨(fresh char found).1, (fresh char found).2.1⟩)
    (fun char found => ⟨(fresh char found).2.2.1, fun sign => noPercent ((fresh char found).2.2.2 sign)⟩)
  exact (goes next head).imp_right fun ⟨operator, same, _⟩ => ⟨operator, same⟩

/-- A finite power may be written as a literal, where neither a sign nor a power sign stands
before it. -/
theorem sameAnswer_power (plain : IsPlain base) (plain' : IsPlain exponent)
    (finite : (literalPower base exponent).isFinite = true)
    (positive : isNegative (literalPower base exponent) = false)
    (apart : ¬ (left.getLast? = some '^' ∨ touchesNumeral left.getLast? = true))
    (unsigned : Unsigned left) (noPercent : '%' ∉ left) (noPercent' : '%' ∉ right)
    (ends : touchesNumeral right.head? = false) :
    SameAnswer (execute mode (complete (left ++ (base ++ '^' :: exponent ++ right))))
      (execute mode (complete (left ++ (literalText (literalPower base exponent) ++ right)))) := by
  obtain ⟨plainValue, literal⟩ := isPlain_literalText finite positive
  have power := isOperand_power plain plain'
  have value := isOperand_plain plainValue
  rw [power.complete noPercent noPercent', value.complete noPercent noPercent']
  have stops : ∀ char ∈ (behind right).head?, isNumeralChar char = false :=
    fun char head => (head?_behind ends char head).1
  cases scanned : scan none 0 .nothing (before left) with
  | error cause => exact sameAnswer_of_unread scanned _ _
  | ok read =>
    obtain ⟨items, last⟩ := read
    rcases scan_before apart unsigned noPercent scanned with ⟨letters, rfl⟩ | ⟨rfl, calm⟩
    · exact sameAnswer_of_word scanned (power.head? _) (value.head? _)
    · have awaits : ∀ final ∈ items.getLast?, Awaits final := fun final found =>
        (calm final found).imp_right fun ⟨operator, same, _⟩ => ⟨operator, same⟩
      refine sameAnswer_of_read scanned (readAs_power plain plain' stops)
        (readAs_literal plainValue literal false stops) fun rest later => carryOut_middle awaits fun stack top => ?_
      exact ⟨_, [.number (literalPower base exponent)],
        sends_power (top ▸ calm) (follows_operand ends noPercent' later), rfl, sameEffect_power _ _⟩

end Reckon.Proofs.PowerFolding
