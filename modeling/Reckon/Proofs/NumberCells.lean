import Reckon.Proofs.BatchRows
import Reckon.Proofs.FoldedParts
import Reckon.Proofs.PrintedTree
import Reckon.Proofs.WrittenNumber

/-! Numbers in a batch. Each is put down in full, and with a power of ten where it is very large
or very small. The language knows no powers of ten, so the `e` in front of one is the constant
of that name, and such a number is read as a product and a sum. -/

namespace Reckon.Proofs.NumberCells
open Entry Lexer Grammar LiteralReading NumeralText SettledText ReadText WrittenNumber
open FoldedText PrintedTree BatchRows Evaluator Transparency ErrorContract

variable {text digits whole fraction back : List Char} {x value power : Float}
  {operator : BinaryOp} {mode : AngleMode} {negative : Bool}

def mantissa (x : Float) : Float :=
  signed x ⟨(absolute x).digits, 1 - (absolute x).spelled.length⟩

def tens (x : Float) : Int :=
  (absolute x).pointPlace - 1

/-- What a number with a power of ten is read as. -/
def misread (x : Float) : Float :=
  let size := Decimal.toFloat ⟨(tens x).natAbs, 0⟩
  if tens x < 0 then mantissa x * euler - size else mantissa x * euler + size

def readAs (x : Float) : Float :=
  if 'e' ∈ exactText x then misread x else x

section Reading

private theorem isLiteral_of_spells (spells : Spells whole fraction) :
    IsLiteral (whole ++ Decimal.fraction fraction)
      (Decimal.toFloat ⟨Nat.ofDigitChars 10 (whole ++ fraction) 0, -fraction.length⟩) where
  chars char member := by simpa [isNumeralChar] using spells.chars char member
  reads := by
    rw [spells.decimal?, Text.digitsValue_eq spells.digits]
    rfl

/-- A zero behind the point changes nothing. -/
theorem toFloat_tenth (count : Nat) : Decimal.toFloat ⟨10 * count, -1⟩ = Decimal.toFloat ⟨count, 0⟩ := by
  cases count with
  | zero => decide +kernel
  | succ less =>
    have same : Decimal.value ⟨10 * (less + 1), -1⟩ = Decimal.value ⟨less + 1, 0⟩ := by
      simp only [Decimal.value]
      push_cast
      ring
    rw [DecimalDouble.toFloat_eq (by simp) (by simp) (by simp),
      DecimalDouble.toFloat_eq (by simp) (by simp) (by simp), same]

private theorem isLiteral_pointed (filled : whole ≠ []) (ascii : ∀ char ∈ whole, char.isDigit = true)
    (literal : IsLiteral whole value) : IsLiteral (whole ++ ['.', '0']) value := by
  have bare : Spells whole [] := ⟨filled, by simpa using ascii⟩
  have pointed : Spells whole ['0'] := ⟨filled, ascii_append ascii (zeros_ascii 1)⟩
  have read := isLiteral_of_spells pointed
  have read' := (isLiteral_of_spells bare).reads
  have shift : Nat.ofDigitChars 10 (whole ++ ['0']) 0 = 10 * Nat.ofDigitChars 10 whole 0 := by
    rw [Nat.ofDigitChars_append]
    rfl
  have same := toFloat_tenth (Nat.ofDigitChars 10 whole 0)
  simp only [Decimal.fraction, List.append_nil, List.length_nil, Nat.cast_zero, neg_zero] at read'
  rw [literal.reads, Option.some.injEq] at read'
  refine ⟨read.chars, read.reads.trans ?_⟩
  rw [read', ← same, ← shift]
  rfl

private theorem signedText_eq (x : Float) (text : List Char) :
    signedText (isNegative x) text = signMark x ++ text := by
  rw [signMark, signedText]
  split <;> rfl

private theorem signedText_inj {other : List Char} (same : signedText negative text = signedText negative other) :
    text = other := by
  cases negative with
  | false => exact same
  | true => exact (List.cons.inj same).2

/-- A finite number is the literal of its digits in full, with its sign. -/
theorem isLiteral_positional (finite : x.isFinite = true) :
    ∃ value, IsLiteral (absolute x).positional value ∧ (if isNegative x then -value else value) = x := by
  obtain ⟨digits, value, written, literal, back⟩ := literalText_signed finite
  rw [literalText, specialName?_of_isFinite finite, Option.getD_none, ← signedText_eq] at written
  obtain rfl := signedText_inj written
  exact ⟨value, literal, back⟩

private theorem positional_whole {decimal : Decimal} (whole : 0 ≤ decimal.exponent) :
    decimal.positional = decimal.spelled ++ List.replicate decimal.exponent.toNat '0' := by
  simp [Decimal.positional, whole]

/-- The digits that a number in full is put down with, and how it is read without them. -/
theorem exactText_cases (finite : x.isFinite = true) :
    ('e' ∉ exactText x ∧ ∃ digits value, exactText x = signedText (isNegative x) digits ∧
        IsLiteral digits value ∧ (if isNegative x then -value else value) = x) ∨
      'e' ∈ exactText x ∧ exactText x = signMark x ++ (absolute x).scientific := by
  obtain ⟨value, literal, back⟩ := isLiteral_positional finite
  have inFull {text : List Char} (same : exactText x = signMark x ++ text)
      (reads : IsLiteral text value) : 'e' ∉ exactText x ∧ ∃ digits value,
        exactText x = signedText (isNegative x) digits ∧ IsLiteral digits value ∧
          (if isNegative x then -value else value) = x := by
    rw [← signedText_eq] at same
    refine ⟨fun member => ?_, text, value, same, reads, back⟩
    rw [same] at member
    exact absurd (mem_signedText _ reads.chars 'e' member) (by decide)
  have laid := exactText.eq_1 x
  rw [specialName?_of_isFinite finite, Option.getD_none] at laid
  split_ifs at laid with moderate whole
  · have ascii := ascii_append (spelled_ascii (absolute x)) (zeros_ascii (absolute x).exponent.toNat)
    rw [← positional_whole whole] at ascii
    exact .inl (inFull laid (isLiteral_pointed literal.filled ascii literal))
  · exact .inl (inFull laid literal)
  · refine .inr ⟨?_, laid⟩
    rw [laid, Decimal.scientific, Decimal.exponentMark]
    simp

end Reading

section Product

def sumChars : List Char :=
  '+' :: numeralChars

private theorem inert_sums : ∀ left ∈ sumChars, Kept left ∧ Text.isFoldedLetter left = false ∧ left ≠ '%' ∧
    ∀ right ∈ sumChars, Inert left right := by
  decide +kernel

private theorem bare_sums (chars : ∀ char ∈ text, char ∈ sumChars) : ∀ char ∈ text, Bare char :=
  fun char member =>
    have inert := inert_sums char (chars char member)
    ⟨inert.1, inert.2.1⟩

private theorem chain_sums (chars : ∀ char ∈ text, char ∈ sumChars) : text.IsChain Inert :=
  (List.pairwise_of_forall_mem_list fun left member right member' =>
    (inert_sums left (chars left member)).2.2.2 right (chars right member')).isChain

/-- Among inert neighbours nothing is computed and nothing written. -/
theorem completed_inert (chain : text.IsChain Inert) :
    computed text = text ∧ fillGaps productGap text = text ∧ fillGaps emptyGap text = text := by
  have settled : text.IsChain Settles := chain.imp fun _ _ => And.left
  have powers : foldPowers text = text := substituteFrom_powers none (chain.imp fun _ _ => And.right)
  have percents := foldPercents_append settled (.inl rfl)
  have products := @fillGaps_append _ _ [] (settled.imp fun _ _ => Settles.product) (by simp)
  have zeros := @fillGaps_append _ _ [] (settled.imp fun _ _ => Settles.empty) (by simp)
  have nothing : foldPercents [] = [] := rfl
  have nothing' (gap : Char → Char → List Char) : fillGaps gap [] = [] := rfl
  simp only [nothing, nothing', List.append_nil] at percents products zeros
  exact ⟨by rw [computed, powers, percents], products, zeros⟩

private theorem written_inert (chain : text.IsChain Inert) : written text = text := by
  obtain ⟨-, products, zeros⟩ := completed_inert chain
  rw [written, products, zeros]

private theorem prepare_sums (chars : ∀ char ∈ text, char ∈ sumChars) :
    Entry.spelled text = text ∧ expandConstants text = text ∧ '%' ∉ text :=
  ⟨spelled_eq_self (bare_sums chars), expandConstants_eq_self (bare_sums chars),
    fun member => (inert_sums '%' (chars '%' member)).2.2.1 rfl⟩

private theorem noLetter_sums (chars : ∀ char ∈ text, char ∈ sumChars) {char : Char} (member : char ∈ text) :
    Text.isFoldedLetter char = false :=
  (inert_sums char (chars char member)).2.1

/-- An `e` among numerals gives way to the literal of the constant. -/
theorem prepare_euler {first rest : List Char} (chars : ∀ char ∈ first, char ∈ sumChars)
    (chars' : ∀ char ∈ rest, char ∈ sumChars) :
    prepare (first ++ (['e'] ++ rest)) = first ++ ((Expr.literal euler).print ++ rest) := by
  obtain ⟨spelled, expanded, clear⟩ := prepare_sums chars
  obtain ⟨spelled', expanded', clear'⟩ := prepare_sums chars'
  have factor : expandConstants ['e'] = (Expr.literal euler).print := rfl
  have letter : Entry.spelled ['e'] = ['e'] := spelled_operand (.inr (.inl (by decide)))
  have inside : '%' ∉ (Expr.literal euler).print := by decide +kernel
  have cut : Cut first.getLast? (['e'] ++ rest).head? :=
    .inl fun last found => noLetter_sums chars (List.mem_of_getLast? found)
  have cut' : Cut ['e'].getLast? rest.head? :=
    .inr fun next found => noLetter_sums chars' (List.mem_of_mem_head? found)
  have noPercent : '%' ∉ first ++ ((Expr.literal euler).print ++ rest) := by
    simp only [List.mem_append, clear, inside, clear', or_self, not_false_eq_true]
  rw [prepare_eq, spelled_append, spelled_append, spelled, letter, spelled', expandConstants_parts cut,
    expandConstants_parts cut', expanded, expanded', factor, fillGaps_percent noPercent]

/-- Where an `e` stands between a digit and a sign, it is a factor. -/
theorem normalize_euler {first rest : List Char} {digit sign : Char}
    (chars : ∀ char ∈ first, char ∈ sumChars) (chars' : ∀ char ∈ sign :: rest, char ∈ sumChars)
    (final : first.getLast? = some digit) (last : Text.isDigit digit = true)
    (noOperand : Text.isDigit sign = false) :
    normalize (first ++ 'e' :: sign :: rest) =
      first ++ '*' :: ((Expr.literal euler).print ++ sign :: rest) := by
  obtain ⟨front, back, -, chain⟩ := enclosed_print (.literal euler) (by decide)
  have prepared := prepare_euler chars chars'
  generalize (Expr.literal euler).print = middle at front back chain prepared
  have computed' : computed (first ++ (middle ++ sign :: rest)) = first ++ (middle ++ sign :: rest) := by
    rw [computed_parts foreign_parenthesis.1 (.inr (by simp [front])),
      computed_parts foreign_parenthesis.2 (.inl back), (completed_inert (chain_sums chars)).1,
      (completed_inert chain).1, (completed_inert (chain_sums chars')).1]
  have filled : middle ≠ [] := by
    rintro rfl
    cases front
  have member : sign ∈ sign :: rest := List.mem_cons_self ..
  have noLetter : Text.isLetter sign = false := by
    rw [← Bool.not_eq_true]
    intro letter
    exact absurd (Text.isFoldedLetter_of_isLetter letter) (by simp [noLetter_sums chars' member])
  have opens : sign ≠ '(' := by
    rintro rfl
    exact absurd (chars' _ member) (by decide)
  have products : product (some digit) (some '(') = ['*'] ∧ product (some ')') (some sign) = [] := by
    simp [product, bridge, productGap, last, noOperand, opens, noLetter]
  have shape : normalize (first ++ 'e' :: sign :: rest) =
      written (computed (prepare (first ++ (['e'] ++ sign :: rest)))) := rfl
  rw [shape, prepared, computed', written_middle filled (completed_inert chain).2.1
    (completed_inert chain).2.2 (by simp [front]) (by simp [back]), final, front, back, List.head?_cons,
    products.1, products.2, written_inert (chain_sums chars), written_inert (chain_sums chars')]
  simp

def productTree (operator : BinaryOp) (first power : Float) : Expr :=
  .binary operator (.binary .multiply (.literal first) (.literal euler)) (.literal power)

private theorem reads_product (level : operator.level = 1) (first power : Float) :
    Reads .sum ([.number first, .binary .multiply] ++ [.opening, .number euler, .closing] ++
      [.binary operator, .number power]) (productTree operator first power) := by
  have number (x : Float) : Reads .signed [.number x] (.literal x) :=
    .unsigned (.base (.bare (.number x)))
  have factor : Reads .signed [.opening, .number euler, .closing] (.literal euler) :=
    .unsigned (.base (.bare (.group (.term (.factor (number euler))))))
  exact .sum operator level (.term (.product .multiply rfl (.factor (number first)) factor))
    (.factor (number power))

private theorem value_product (level : operator.level = 1) (first power : Float) :
    (productTree operator first power).value mode = .ok (operator.value (first * euler) power) := by
  have allowed : operator.refuses power = false := by
    cases operator <;> first | rfl | exact absurd level (by decide)
  have allowed' : BinaryOp.refuses .multiply euler = false := rfl
  simp only [productTree, Expr.value, BinaryOp.apply, allowed, allowed', bind, Except.bind, Bool.false_eq_true,
    if_false]
  rfl

private theorem lex_product {front : List Char} {first : Float} (literal : IsLiteral front first)
    (literal' : IsLiteral back power) (level : operator.level = 1) :
    ∃ items, lex (signedText negative front ++
        '*' :: ((Expr.literal euler).print ++ operator.symbol :: back)) = .ok items ∧
      Reads .sum items (productTree operator (if negative then -first else first) power) := by
  have times : symbol? '*' = some (.binary .multiply) := rfl
  have known : symbol? operator.symbol = some (.binary operator) := by cases operator <;> rfl
  have finite : ∀ x ∈ (Expr.literal euler).literals, x.isFinite = true := by decide
  obtain ⟨place, inside⟩ := lexFrom_print (.literal euler) finite (some '*')
    (0 + (signedText negative front).length + 1) (operator.symbol :: back)
  obtain ⟨last, steps⟩ := @lexFrom_numeral (some operator.symbol) back false (place + 1) []
    literal'.filled literal'.chars nofun
  have ends : lexFrom (some operator.symbol) (place + 1) .nothing back = .ok [.number power] := by
    rw [List.append_nil, signedText, if_neg (by decide)] at steps
    rw [steps, lexFrom, settle, literal'.numeral]
    rfl
  refine ⟨_, ?_, reads_product level _ power⟩
  rw [lex, lexFrom_numeral_symbol literal.filled literal.chars (fun _ => rfl) times (by decide),
    literal.numeral, inside, lexFrom_symbol known fun _ => rfl, ends]
  rfl

end Product

section Length

variable (decimal : Decimal)

private theorem length_fraction (digits : List Char) : (Decimal.fraction digits).length ≤ digits.length + 1 := by
  cases digits <;> simp [Decimal.fraction]

private theorem le_length_positional :
    decimal.spelled.length ≤ decimal.positional.length ∧
      decimal.pointPlace.natAbs ≤ decimal.positional.length := by
  have total : decimal.pointPlace = decimal.spelled.length + decimal.exponent := rfl
  have all (digits : List Char) : digits.length ≤ (Decimal.fraction digits).length := by
    cases digits <;> simp [Decimal.fraction]
  unfold Decimal.positional
  dsimp only
  split_ifs with whole inside
  · simp only [List.length_append, List.length_replicate]
    omega
  · have behind := all (decimal.spelled.drop decimal.pointPlace.toNat)
    simp only [List.length_append, List.length_take, List.length_drop] at behind ⊢
    omega
  · have behind := all (List.replicate (-decimal.pointPlace).toNat '0' ++ decimal.spelled)
    simp only [List.length_cons, List.length_append, List.length_replicate] at behind ⊢
    omega

private theorem length_scientific_le (short : decimal.positional.length ≤ 361) :
    decimal.scientific.length ≤ 370 := by
  obtain ⟨digits, place⟩ := le_length_positional decimal
  have size : (Nat.toDigits 10 (decimal.pointPlace - 1).natAbs).length ≤ 3 :=
    (Nat.length_toDigits_le_iff (by decide) (by decide)).mpr (by omega)
  have behind := length_fraction (decimal.spelled.drop 1)
  simp only [Decimal.scientific, Decimal.exponentMark, List.length_append, List.length_cons,
    List.length_take, List.length_drop, List.length_replicate] at behind ⊢
  omega

private theorem length_exactText_le (finite : x.isFinite = true) : (exactText x).length ≤ 400 := by
  have short := length_literalText_le finite
  rw [literalText, specialName?_of_isFinite finite, Option.getD_none, List.length_append] at short
  have scientific := length_scientific_le (absolute x) (by omega)
  have sign : (signMark x).length ≤ 1 := by
    unfold signMark
    split <;> simp
  rw [exactText, specialName?_of_isFinite finite, Option.getD_none, List.length_append]
  split_ifs
  · simp only [List.length_append, List.length_cons, List.length_nil]
    omega
  · omega
  · omega

end Length

section Cells

theorem isLiteral_back (exponent : Int) :
    ∃ back, Decimal.exponentMark exponent =
        'e' :: (if exponent < 0 then BinaryOp.subtract else .add).symbol :: back ∧
      IsLiteral back (Decimal.toFloat ⟨exponent.natAbs, 0⟩) := by
  have digits : ∀ char ∈ Nat.toDigits 10 exponent.natAbs, char.isDigit = true :=
    fun _ inside => Nat.isDigit_of_mem_toDigits (by decide) (by decide) inside
  have spells : Spells (List.replicate (2 - (Nat.toDigits 10 exponent.natAbs).length) '0' ++
      Nat.toDigits 10 exponent.natAbs) [] :=
    ⟨by simp [Nat.toDigits_ne_nil], by simpa using ascii_append (zeros_ascii _) digits⟩
  have literal := isLiteral_of_spells spells
  simp only [Decimal.fraction, List.append_nil, List.length_nil, Nat.cast_zero, neg_zero,
    Nat.ofDigitChars_append, Nat.ofDigitChars_replicate_zero, mul_zero, Nat.ofDigitChars_ten_toDigits]
    at literal
  refine ⟨_, ?_, literal⟩
  unfold Decimal.exponentMark
  dsimp only
  split <;> rfl

theorem spells_front (decimal : Decimal) : Spells (decimal.spelled.take 1) (decimal.spelled.drop 1) where
  filled := by simp [show decimal.spelled ≠ [] from Nat.toDigits_ne_nil]
  digits := by
    rw [List.take_append_drop]
    exact spelled_ascii decimal

private theorem isLiteral_front (decimal : Decimal) :
    IsLiteral (decimal.spelled.take 1 ++ Decimal.fraction (decimal.spelled.drop 1))
      (Decimal.toFloat ⟨decimal.digits, 1 - decimal.spelled.length⟩) := by
  have literal := isLiteral_of_spells (spells_front decimal)
  have some : 0 < decimal.spelled.length := List.length_pos_iff.mpr Nat.toDigits_ne_nil
  have places : -((decimal.spelled.drop 1).length : Int) = 1 - decimal.spelled.length := by
    rw [List.length_drop]
    omega
  have value : Nat.ofDigitChars 10 decimal.spelled 0 = decimal.digits := Nat.ofDigitChars_ten_toDigits
  rwa [List.take_append_drop, value, places] at literal

/-- A mantissa, an `e` and a literal with a sign are taken for a product and a sum. -/
theorem evaluate_product {first : Float} (spells : Spells whole fraction)
    (literal : IsLiteral (whole ++ Decimal.fraction fraction) first) (literal' : IsLiteral back power)
    (level : operator.level = 1)
    (written : text = signedText negative (whole ++ Decimal.fraction fraction) ++
      'e' :: operator.symbol :: back)
    (short : text.length ≤ 400) (mode : AngleMode) :
    evaluate {} mode (some (String.ofList text)) =
      .ok (roundTo resultScale
        (operator.value ((if negative then -first else first) * euler) power)) := by
  obtain ⟨digit, final, last⟩ := (LiteralPower.isNumeral_of_spells spells).getLast?
  have chars : ∀ char ∈ signedText negative (whole ++ Decimal.fraction fraction), char ∈ sumChars :=
    fun char member => List.mem_cons_of_mem _ (mem_signedText negative literal.chars char member)
  have chars' : ∀ char ∈ operator.symbol :: back, char ∈ sumChars := by
    refine List.forall_mem_cons.mpr ⟨?_, fun char member =>
      List.mem_cons_of_mem _ (mem_of_isNumeralChar (literal'.chars char member))⟩
    cases operator <;> first | decide | exact absurd level (by decide)
  have final' : (signedText negative (whole ++ Decimal.fraction fraction)).getLast? = some digit := by
    cases negative <;> simp [signedText, List.getLast?_cons, final]
  have noDigit : Text.isDigit operator.symbol = false := by cases operator <;> decide
  obtain ⟨items, read, reading⟩ := @lex_product _ _ _ negative _ _ literal literal' level
  rw [← normalize_euler chars chars' final' last noDigit, ← written] at read
  have level' : Level text := by
    apply level_of_plain
    intro char member
    have plain : ∀ char ∈ sumChars, char ≠ '(' ∧ char ≠ ')' := by decide
    rw [written, List.mem_append, List.mem_cons] at member
    rcases member with left | rfl | right
    · exact plain char (chars char left)
    · decide
    · exact plain char (chars' char right)
  have member : 'e' ∈ text := by simp [written]
  rw [evaluate_of_reads (length_fits short) member (by decide) (level' 0) read reading,
    value_product level, answer, decimalScale_default]
  rfl

private theorem evaluate_scientific (finite : x.isFinite = true)
    (written : exactText x = signMark x ++ (absolute x).scientific) (mode : AngleMode) :
    evaluate {} mode (some (exact x)) = .ok (roundTo resultScale (misread x)) := by
  obtain ⟨back, mark, literal'⟩ := isLiteral_back (tens x)
  have level : (if tens x < 0 then BinaryOp.subtract else .add).level = 1 := by split <;> rfl
  have parts : exactText x = signedText (isNegative x) ((absolute x).spelled.take 1 ++
      Decimal.fraction ((absolute x).spelled.drop 1)) ++
        'e' :: (if tens x < 0 then BinaryOp.subtract else .add).symbol :: back := by
    rw [written, Decimal.scientific, ← mark, tens, signedText_eq]
    simp only [List.append_assoc]
  rw [exact, evaluate_product (spells_front _) (isLiteral_front _) literal' level parts
    (length_exactText_le finite), misread]
  split <;> rfl

/-- Every finite number has a value, whichever way it is put down. -/
theorem evaluate_exact (finite : x.isFinite = true) (mode : AngleMode) :
    evaluate {} mode (some (exact x)) = .ok (roundTo resultScale (readAs x)) := by
  rcases exactText_cases finite with ⟨plain, digits, value, written, literal, back⟩ | ⟨letter, written⟩
  · have short := length_exactText_le finite
    rw [written] at short
    rw [readAs, if_neg plain, exact, written, evaluate_signed literal short, back]
  · rw [readAs, if_pos letter, evaluate_scientific finite written]

private theorem cell_real (finite : x.isFinite = true) : (Datum.real x).cell = .ok (exact x) := by
  have noName := specialName?_of_isFinite finite
  unfold specialName? at noName
  split_ifs at noName with nan infinite
  rw [Datum.cell, if_neg nan]

private theorem outcomeOf_real (finite : x.isFinite = true) (mode : AngleMode) :
    outcomeOf {} mode (.real x) = .ok (roundTo resultScale (readAs x)) := by
  rw [outcomeOf_of_cell (cell_real finite), evaluate_exact finite]

end Cells

/-- A finite number in a batch that has rows has one with a value and no error, after whatever
tasks and in every unit of angles. The value is the number, rounded, where its text has no `e`.
Where it has one, the value is that of the product and the sum which the text is read as. -/
theorem rows_of_numbers {capacity? : Option Datum} {mode? : Option AngleMode} {tasks : List Task}
    (whole : IsWhole (capacity?.getD ({} : Config).cacheSize)) (sets : ∀ task ∈ tasks, SetsWhole task)
    (unit? : Option AngleMode) (batch : Series) :
    let evaluator := after {} (Evaluator.new {} capacity? mode?) tasks
    ((∃ rows, (evaluator.evaluateMany {} unit? batch).1 = .ok rows) ↔ AllWritable batch) ∧
      ∀ rows, (evaluator.evaluateMany {} unit? batch).1 = .ok rows →
        List.Forall₂ (fun entry row => ∀ x, entry.2 = .real x → x.isFinite = true →
          row.error = none ∧ row.value = roundTo resultScale (readAs x)) batch rows := by
  intro evaluator
  have sound : Sound {} (mode?.getD ({} : Config).defaultMode) evaluator :=
    sound_after (sound_new whole) sets
  have writable_iff := exists_rows_iff usable_default sound unit? batch
  refine ⟨writable_iff, fun rows answered => ?_⟩
  have known := rows_eq usable_default sound unit? (writable_iff.mp ⟨rows, answered⟩)
  obtain rfl := Except.ok.inj (known.symm.trans answered)
  rw [rowsOf, List.forall₂_map_right_iff, List.forall₂_same]
  intro entry _ x number finite
  rw [number, outcomeOf_real finite]
  exact ⟨rfl, rfl⟩

theorem rows_of_numbers_mixed :
    let tasks : List Task := [.evaluate (some "2+2") none, .resize (.integer 1)]
    let batch : Series :=
      [(.integer 0, .text "1/0"), (.integer 1, .real 1e16), (.missing, .real (-0.25))]
    let evaluator := after {} (Evaluator.new {} (some (.integer 2)) none) tasks
    IsWhole (.integer 2) ∧ (∀ task ∈ tasks, SetsWhole task) ∧ AllWritable batch ∧
      ∃ first second third, (evaluator.evaluateMany {} (some .radians) batch).1 =
          .ok [first, second, third] ∧
        second.error = none ∧ second.value = roundTo resultScale (1.0 * euler + 16.0) ∧
        third.error = none ∧ third.value = roundTo resultScale (-0.25) := by
  intro tasks batch evaluator
  have sets : ∀ task ∈ tasks, SetsWhole task := by
    simp [tasks, SetsWhole, IsWhole]
  have writable : AllWritable batch := by
    simp only [AllWritable]
    decide +kernel
  have large : readAs 1e16 = 1.0 * euler + 16.0 := by decide +kernel
  have moderate : readAs (-0.25) = -0.25 := by decide +kernel
  obtain ⟨writable_iff, numbers⟩ := @rows_of_numbers (some (.integer 2)) none tasks ⟨2, rfl⟩ sets
    (some .radians) batch
  obtain ⟨rows, answered⟩ := writable_iff.mpr writable
  have told := numbers rows answered
  simp only [batch] at told
  obtain _ | ⟨-, _ | ⟨second, _ | ⟨third, _ | _⟩⟩⟩ := told
  obtain ⟨noError, value⟩ := second 1e16 rfl rfl
  obtain ⟨noError', value'⟩ := third (-0.25) rfl rfl
  exact ⟨⟨2, rfl⟩, sets, writable, _, _, _, answered, noError, large ▸ value, noError',
    moderate ▸ value'⟩

end Reckon.Proofs.NumberCells
