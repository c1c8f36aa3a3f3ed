import Reckon.Proofs.Double
import Reckon.Proofs.PowerText
import Reckon.Proofs.ReadText

/-! A minus in front of a power. It belongs to the literal behind it, unless the power was
computed before the minus was read. -/

namespace Reckon.Proofs.PowerSign
open Entry Grammar Lexer ReadText NumeralText SettledText LiteralPower PowerText

def glued (base text : List Char) : List Char :=
  '-' :: (base ++ '^' :: text)

def parted (base text : List Char) : List Char :=
  '-' :: '(' :: (base ++ ')' :: '^' :: text)

/-- What may be an exponent, and the tree it means: a literal with a sign or without one,
a sentence in parentheses, or a function with its argument. -/
inductive Exponent : List Char → Expr → Prop
  | literal {digits : List Char} {value : Float} (negative : Bool)
      (literal : IsLiteral digits value) :
      Exponent (signedText negative digits) (.literal (if negative then -value else value))
  | enclosed {text : List Char} {items : List Lexeme} {tree : Expr} (opens : Opens text)
      (balanced : openAfter 0 text = some 0) (read : lex (normalize text) = .ok items)
      (reading : Reads .atom items tree) : Exponent text tree

variable {base text : List Char} {value : Float} {tree : Expr}

/-- What the reader makes of an exponent behind the power sign, wherever it stands. -/
theorem Exponent.read (exponent : Exponent text tree) :
    ∃ items, (∀ place, lexFrom (some '^') place .nothing (normalize text) = .ok items) ∧
      Reads .atom items tree := by
  cases exponent with
  | @literal digits value negative literal =>
    refine ⟨[.number (if negative then -value else value)], fun place => ?_, .number _⟩
    have opens : negative = true → opensOperand (some '^') = true := fun _ => rfl
    obtain ⟨last, steps⟩ := lexFrom_numeral place [] literal.filled literal.chars opens
    rw [List.append_nil] at steps
    rw [normalize_numerals (mem_signedText negative literal.chars), steps, lexFrom, settle,
      literal.numeral]
  | @enclosed _ items tree opens balanced read reading =>
    exact ⟨items, fun place => lexFrom_congr place (by decide) read, reading⟩

theorem Exponent.normalize_parted (exponent : Exponent text tree)
    (chars : ∀ char ∈ base, isNumeralChar char = true) (filled : base ≠ []) :
    normalize (parted base text) = '-' :: '(' :: (base ++ ')' :: '^' :: normalize text) := by
  have front := isFront_parted chars filled
  have parts (rest : List Char) : '-' :: '(' :: (base ++ ')' :: '^' :: rest) =
      '-' :: '(' :: (base ++ [')']) ++ '^' :: rest := by simp
  rw [parted, parts, parts]
  cases exponent with
  | enclosed opens => exact normalize_append front opens
  | @literal digits value negative literal =>
    have numerals := mem_signedText negative literal.chars
    have apart : ∀ last ∈ ('-' :: '(' :: (base ++ [')'])).getLast?, Text.isDigit last = false := by
      rw [← List.cons_append, ← List.cons_append, List.getLast?_concat]
      rintro _ ⟨⟩
      decide
    rw [normalize_numerals numerals]
    exact normalize_literal front numerals (signedText_ne_nil literal.filled)
      (foldPowers_apart front.noPower (noPower_numerals numerals) apart)

theorem Exponent.normalize_glued (exponent : Exponent text tree)
    (chars : ∀ char ∈ base, isNumeralChar char = true) (unfolded : ¬ Folded base text) :
    normalize (glued base text) = '-' :: (base ++ '^' :: normalize text) := by
  have front := isFront_glued chars
  rw [glued, ← List.cons_append, ← List.cons_append]
  cases exponent with
  | enclosed opens => exact normalize_append front opens
  | @literal digits value negative literal =>
    have numerals := mem_signedText negative literal.chars
    rw [normalize_numerals numerals]
    refine normalize_literal front numerals (signedText_ne_nil literal.filled) ?_
    cases negative with
    | false => exact foldPowers_unfolded chars literal.chars unfolded
    | true =>
      have noLiteral : (splitNumeral (signedText true digits)).1 = [] :=
        congrArg Prod.fst (splitNumeral_nil (by decide))
      rw [foldPowers_append front.noPower noLiteral, foldPowers, substitute,
        substituteFrom_powerless (noPower_numerals numerals)]

private theorem lex_glued {items : List Lexeme} {rest : List Char} (literal : IsLiteral base value)
    (read : ∀ place, lexFrom (some '^') place .nothing rest = .ok items) :
    lex ('-' :: (base ++ '^' :: rest)) = .ok (.number (-value) :: .binary .power :: items) := by
  have opens : true = true → opensOperand none = true := fun _ => rfl
  have known : symbol? '^' = some (.binary .power) := rfl
  have steps := @lexFrom_numeral_symbol none 0 '^' (.binary .power) rest base true literal.filled
    literal.chars opens known (by decide)
  rw [read, literal.numeral] at steps
  exact steps

private theorem lex_parted {items : List Lexeme} {rest : List Char} (literal : IsLiteral base value)
    (read : ∀ place, lexFrom (some '^') place .nothing rest = .ok items) :
    lex ('-' :: '(' :: (base ++ ')' :: '^' :: rest)) =
      .ok (.negate :: .opening :: .number value :: .closing :: .binary .power :: items) := by
  have sign := @lexFrom_negate (some '-') 1 '(' (base ++ ')' :: '^' :: rest) (.inl rfl) (by decide)
  have opening := @lexFrom_symbol (some '-') 1 '(' .opening (base ++ ')' :: '^' :: rest) rfl
    fun same => absurd same (by decide)
  have opens : false = true → opensOperand (some '(') = true := fun _ => rfl
  have inside := @lexFrom_numeral_symbol (some '(') 2 ')' .closing ('^' :: rest) base false
    literal.filled literal.chars opens rfl (by decide)
  have power := @lexFrom_symbol (some ')') (2 + base.length + 1) '^' (.binary .power) rest rfl
    fun same => absurd same (by decide)
  rw [literal.numeral, signedText, if_neg Bool.false_ne_true, power, read] at inside
  rw [lex, lexFrom_sign rfl, sign, opening, inside]
  rfl

/-- A folded power is negated, of whichever sign it is: two signs in a row cancel. -/
theorem lex_folded {x : Float} (finite : x.isFinite = true) :
    lex ('-' :: literalText x) = .ok [.number (-x)] := by
  obtain ⟨digits, value, written, literal, back⟩ := literalText_signed finite
  rw [written]
  cases negative : isNegative x with
  | false =>
    rw [negative, if_neg Bool.false_ne_true] at back
    obtain ⟨last, steps⟩ := @lexFrom_numeral none _ true 0 [] literal.filled literal.chars fun _ => rfl
    rw [List.append_nil, signedText, if_pos rfl] at steps
    rw [signedText, if_neg Bool.false_ne_true, lex, steps, lexFrom, settle, literal.numeral, if_pos rfl,
      back]
  | true =>
    rw [negative, if_pos rfl] at back
    obtain ⟨last, steps⟩ :=
      @lexFrom_numeral (some '-') _ false 2 [] literal.filled literal.chars fun _ => rfl
    rw [List.append_nil, signedText, if_neg Bool.false_ne_true] at steps
    have cancelled : lexFrom (some '-') 1 .sign ('-' :: digits) =
        lexFrom (some '-') 2 .nothing digits := rfl
    rw [signedText, if_pos rfl, lex, lexFrom_sign rfl, cancelled, steps, lexFrom, settle, literal.numeral,
      if_neg Bool.false_ne_true]
    rw [← back, Double.neg_neg]

private theorem normalize_folded (chars : ∀ char ∈ base, isNumeralChar char = true)
    (chars' : ∀ char ∈ text, isNumeralChar char = true) (folded : Folded base text) :
    normalize (glued base text) =
      '-' :: literalText (power (numeralValue base) (numeralValue text)) := by
  obtain ⟨plain, plain', finite⟩ := folded
  have numerals : ∀ char ∈ '-' :: literalText (power (numeralValue base) (numeralValue text)),
      char ∈ numeralChars :=
    List.forall_mem_cons.mpr ⟨by decide, literalText_chars finite⟩
  obtain ⟨prepared, -⟩ := prepare_literal (isFront_glued chars)
    (fun char member => mem_of_isNumeralChar (chars' char member)) plain'.ne_nil
  rw [glued, Entry.normalize, ← List.cons_append, prepared, List.cons_append, foldPowers_plain plain plain',
    if_pos finite, complete_eq_self (chain_numerals numerals)]

/-- What is compared of a failure: the kind of its cause, without the words and the text. -/
def shape : Failure → Kind ⊕ Failure
  | .evaluation cause _ => .inl cause.kind
  | other => .inr other

/-- The same double or an error of the same kind. -/
def SameAnswer (first second : Except Failure Float) : Prop :=
  first.mapError shape = second.mapError shape

variable {config : Config} {mode : AngleMode}

theorem Exponent.balanced (exponent : Exponent text tree) : openAfter 0 text = some 0 := by
  cases exponent with
  | enclosed _ balanced => exact balanced
  | literal negative literal =>
    refine level_of_plain (fun char member => ?_) 0
    exact (settled_numerals char (mem_signedText negative literal.chars char member)).plain.2

private theorem plain_numerals (chars : ∀ char ∈ base, isNumeralChar char = true) :
    ∀ char ∈ base, char ≠ '(' ∧ char ≠ ')' :=
  fun char member => (settled_numerals char (mem_of_isNumeralChar (chars char member))).plain.2

private theorem balanced_glued (chars : ∀ char ∈ base, isNumeralChar char = true)
    (balanced : openAfter 0 text = some 0) : openAfter 0 (glued base text) = some 0 := by
  have level : Level ('-' :: (base ++ ['^'])) := by
    apply level_of_plain
    simp only [List.forall_mem_cons, List.forall_mem_append]
    exact ⟨by decide, plain_numerals chars, by decide⟩
  have parts : glued base text = '-' :: (base ++ ['^']) ++ text := by simp [glued]
  rw [parts, openAfter_append, level]
  exact balanced

private theorem balanced_parted (chars : ∀ char ∈ base, isNumeralChar char = true)
    (balanced : openAfter 0 text = some 0) : openAfter 0 (parted base text) = some 0 := by
  have sign : Level ['-'] := level_of_plain (by decide)
  have power : Level ['^'] := level_of_plain (by decide)
  have level := (sign.append (level_of_plain (plain_numerals chars)).group).append power
  have parts : parted base text = ['-'] ++ ('(' :: base ++ [')']) ++ ['^'] ++ text := by simp [parted]
  rw [parts, openAfter_append, level]
  exact balanced

private theorem evaluate_glued (literal : IsLiteral base value) (exponent : Exponent text tree)
    (unfolded : ¬ Folded base text)
    (fits : config.maxLength.below? (.integer (glued base text).length) = some false) :
    evaluate config mode (some (String.ofList (glued base text))) =
      answer config (glued base text) ((Expr.binary .power (.literal (-value)) tree).value mode) := by
  obtain ⟨items, read, reading⟩ := exponent.read
  refine evaluate_of_reads fits (List.mem_cons_self ..) (by decide)
    (balanced_glued literal.chars exponent.balanced) ?_
    (.term (.factor (.unsigned (.power (.base (.bare (.number _))) (.bare reading)))))
  rw [exponent.normalize_glued literal.chars unfolded]
  exact lex_glued literal read

private theorem evaluate_parted (literal : IsLiteral base value) (exponent : Exponent text tree)
    (fits : config.maxLength.below? (.integer (parted base text).length) = some false) :
    evaluate config mode (some (String.ofList (parted base text))) =
      answer config (parted base text)
        ((Expr.negate (.binary .power (.literal value) tree)).value mode) := by
  obtain ⟨items, read, reading⟩ := exponent.read
  have group : Reads .atom ([.opening, .number value] ++ [.closing]) (.literal value) :=
    .group (.term (.factor (.unsigned (.base (.bare (.number value))))))
  refine evaluate_of_reads fits (List.mem_cons_self ..) (by decide)
    (balanced_parted literal.chars exponent.balanced) ?_
    (.term (.factor (.negate (.unsigned (.power (.base (.bare group)) (.bare reading))))))
  rw [exponent.normalize_parted literal.chars literal.filled]
  exact lex_parted literal read

private theorem Exponent.unsigned (exponent : Exponent text tree) (plain : IsPlain text) :
    ∃ value, IsLiteral text value ∧ tree = .literal value := by
  have split := @IsPlain.splitNumeral _ [] plain rfl
  rw [List.append_nil] at split
  have filled := plain.ne_nil
  cases exponent with
  | enclosed opens =>
    have none := opens.splitNumeral
    rw [split] at none
    exact absurd none filled
  | @literal digits value negative literal =>
    cases negative with
    | true =>
      rw [signedText, if_pos rfl, splitNumeral_nil (by decide)] at split
      cases split
    | false => exact ⟨value, literal, rfl⟩

private theorem value_power (x : Float) (tree : Expr) :
    (Expr.binary .power (.literal x) tree).value mode = (power x ·) <$> tree.value mode := by
  simp only [Expr.value, bind, Except.bind]
  cases tree.value mode <;> rfl

private theorem value_negate (tree : Expr) :
    (Expr.negate tree).value mode = (fun x => -x) <$> tree.value mode := by
  simp only [Expr.value, bind, Except.bind]
  cases tree.value mode <;> rfl

/-- Where the power was computed in the text, the minus stands before it. -/
theorem evaluate_folded (literal : IsLiteral base value) (exponent : Exponent text tree)
    (folded : Folded base text)
    (fits : config.maxLength.below? (.integer (glued base text).length) = some false) :
    evaluate config mode (some (String.ofList (glued base text))) =
      answer config (glued base text)
        ((Expr.negate (.binary .power (.literal value) tree)).value mode) := by
  obtain ⟨value', literal', rfl⟩ := exponent.unsigned folded.2.1
  have normalized := normalize_folded literal.chars literal'.chars folded
  have finite := folded.2.2
  rw [literal.numeralValue, literal'.numeralValue] at normalized finite
  have read : lex (normalize (glued base text)) = .ok [.number (-power value value')] := by
    rw [normalized, lex_folded finite]
  have value : (Expr.negate (.binary .power (.literal value) (.literal value'))).value mode =
      (Expr.literal (-power value value')).value mode := rfl
  rw [value]
  exact evaluate_of_reads fits (List.mem_cons_self ..) (by decide)
    (balanced_glued literal.chars exponent.balanced) read
    (.term (.factor (.unsigned (.base (.bare (.number _))))))

/-- Two texts have the same answer if they fail for the same cause or if their values
round alike. -/
theorem sameAnswer_iff {first second : List Char} {outcome outcome' : Float → Float}
    {exponent : Except Cause Float} :
    SameAnswer (answer config first (outcome <$> exponent))
        (answer config second (outcome' <$> exponent)) ↔
      ∀ y scale, exponent = .ok y → decimalScale config.roundDecimals = .ok scale →
        roundTo scale (outcome y) = roundTo scale (outcome' y) := by
  cases exponent with
  | error cause => simp [SameAnswer, answer, Functor.map, Except.map, Except.mapError, shape]
  | ok y =>
    cases known : decimalScale config.roundDecimals with
    | error failure => simp [SameAnswer, answer, known, Functor.map, Except.map]
    | ok scale => simp [SameAnswer, answer, known, Functor.map, Except.map, Except.mapError]

/-- A minus in front of a power of a literal is applied after the power if the power was
computed in the text. Otherwise it belongs to the base, and it is no matter only if the
power of the negated base rounds to the negated power. -/
theorem minus_before_power {config : Config} {mode : AngleMode} {base text : List Char}
    {value : Float} {tree : Expr} (literal : IsLiteral base value) (exponent : Exponent text tree)
    (fits : config.maxLength.below? (.integer (glued base text).length) = some false)
    (fits' : config.maxLength.below? (.integer (parted base text).length) = some false) :
    SameAnswer (evaluate config mode (some (String.ofList (glued base text))))
        (evaluate config mode (some (String.ofList (parted base text)))) ↔
      Folded base text ∨
        ∀ y scale, tree.value mode = .ok y → decimalScale config.roundDecimals = .ok scale →
          roundTo scale (power (-value) y) = roundTo scale (-power value y) := by
  rw [evaluate_parted literal exponent fits', value_negate, value_power, Functor.map_map]
  by_cases folded : Folded base text
  · rw [evaluate_folded literal exponent folded fits, value_negate, value_power, Functor.map_map,
      sameAnswer_iff]
    exact ⟨fun _ => .inl folded, fun _ _ _ _ _ => rfl⟩
  · rw [evaluate_glued literal exponent folded fits, value_power, sameAnswer_iff, or_iff_right folded]

theorem minus_before_power_grouped :
    IsLiteral ['2'] 2.0 ∧ Exponent ['(', '2', ')'] (.literal 2.0) ∧
      ¬ SameAnswer (evaluate {} .degrees (some "-2^(2)")) (evaluate {} .degrees (some "-(2)^(2)")) := by
  have literal : IsLiteral ['2'] 2.0 := ⟨by decide, by rfl⟩
  have read : lex (normalize ['(', '2', ')']) = .ok [.opening, .number 2.0, .closing] := by rfl
  have exponent : Exponent ['(', '2', ')'] (.literal 2.0) :=
    .enclosed ⟨'(', ['2', ')'], rfl, .inl rfl⟩ (by decide) read
      (.group (.term (.factor (.unsigned (.base (.bare (.number 2.0)))))))
  refine ⟨literal, exponent, fun same => ?_⟩
  have exact := @minus_before_power {} .degrees _ _ _ _ literal exponent (by decide) (by decide)
  rcases exact.mp same with folded | rounds
  · obtain ⟨_, literal', -⟩ := exponent.unsigned folded.2.1
    exact absurd (literal'.chars _ (List.mem_cons_self ..)) (by decide)
  · have values := rounds 2.0 100000000.0 rfl rfl
    exact absurd values (by decide)

end Reckon.Proofs.PowerSign
