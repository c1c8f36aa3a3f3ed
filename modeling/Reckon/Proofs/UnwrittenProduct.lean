import Reckon.Proofs.PercentText
import Reckon.Proofs.QuotientSign

/-! Two operands side by side mean their product. The sign between them may be left out, because
no pass before the one that writes it reaches over the place where they meet. -/

namespace Reckon.Proofs.UnwrittenProduct
open Entry FoldedText LiteralPlace LiteralPower LiteralReading PercentText QuotientSign
open Float.Model

/-- An operand may end in the one character and another one may begin with the other. Two digits
belong together. -/
structure Meets (last next : Char) : Prop where
  closes : Text.isDigit last = true ∨ last = ')' ∨ last = '%' ∨ Text.isGreekPi last = true
  opens : Text.isDigit next = true ∨ next = '(' ∨ Text.isLetter next = true ∨ Text.isGreekPi next = true
  apart : ¬ (Text.isDigit last = true ∧ Text.isDigit next = true)

variable {before : Option Char} {text result first rest left right : List Char} {char last next : Char}
  {found : Match} {x : Float}

def Gap (last next : Char) : Prop :=
  percentGap last next = ['*'] ∨ percentGap last next = [] ∧ productGap last next = ['*']

private theorem gap_of_meets (meets : Meets last next) (noPi : Text.isGreekPi last = false)
    (noPi' : Text.isGreekPi next = false) : Gap last next := by
  obtain ⟨closes, opens, apart⟩ := meets
  simp only [noPi, noPi', Bool.false_eq_true, or_false] at closes opens
  rcases closes with digit | rfl | rfl
  · have noPercent : last ≠ '%' := by
      rintro rfl
      exact absurd digit (by decide)
    have opens' := opens.resolve_left fun digit' => apart ⟨digit, digit'⟩
    refine .inr ⟨by simp [percentGap, noPercent], ?_⟩
    rcases opens' with same | letter <;> simp [productGap, *]
  · refine .inr ⟨by simp [percentGap], ?_⟩
    rcases opens with digit | same | letter <;> simp [productGap, *]
  · exact .inl (by simp [percentGap, opens])

/-- Where operands meet in the entered text, a gap is left once constants are expanded. -/
theorem exists_gap (final : (spelled left).getLast? = some last) (head : (spelled right).head? = some next)
    (meets : Meets last next) :
    ∃ last' next', (expandConstants (spelled left)).getLast? = some last' ∧
      (expandConstants (spelled right)).head? = some next' ∧ Gap last' next' := by
  have closing : ∃ last', (expandConstants (spelled left)).getLast? = some last' ∧
      (last' = last ∨ last' = ')') := by
    rcases (ends_expandConstants (spelled left)).2 with same | closed
    · exact ⟨last, same.trans final, .inl rfl⟩
    · exact ⟨')', closed, .inr rfl⟩
  have opening : ∃ next', (expandConstants (spelled right)).head? = some next' ∧
      (next' = next ∨ next' = '(') := by
    rcases (ends_expandConstants (spelled right)).1 with same | opened
    · exact ⟨next, same.trans head, .inl rfl⟩
    · exact ⟨'(', opened, .inr rfl⟩
  obtain ⟨last', final', closes⟩ := closing
  obtain ⟨next', head', opens⟩ := opening
  have meets' : Meets last' next' := by
    have noDigit : Text.isDigit ')' = false ∧ Text.isDigit '(' = false := by decide
    refine ⟨?_, ?_, ?_⟩
    · rcases closes with rfl | rfl
      · exact meets.closes
      · exact .inr (.inl rfl)
    · rcases opens with rfl | rfl
      · exact meets.opens
      · exact .inr (.inl rfl)
    · rcases closes with rfl | rfl <;> rcases opens with rfl | rfl <;> simp [noDigit, meets.apart]
  have noPi := noPi_expandConstants (spelled left) last' (List.mem_of_getLast? final')
  have noPi' := noPi_expandConstants (spelled right) next' (List.mem_of_mem_head? head')
  exact ⟨last', next', final', head', gap_of_meets meets' noPi noPi'⟩

/-- What the value of a power is written with ends in a digit, and so does a power that is kept. -/
theorem getLast?_power {base exponent : List Char} (power : PowerMatch before base exponent rest found) :
    ∃ last, found.replacement.getLast? = some last ∧ Text.isDigit last = true := by
  rw [power.found]
  by_cases finite : (literalPower base exponent).isFinite = true
  · obtain ⟨whole, fraction, decimal, written, spells, -⟩ := literalText_spec finite
    obtain ⟨last, final, digit⟩ := (isNumeral_of_spells spells).getLast?
    exact ⟨last, by rw [if_pos finite, written, List.getLast?_append, final]; rfl, digit⟩
  · obtain ⟨last, final, digit⟩ := power.second.getLast?
    refine ⟨last, ?_, digit⟩
    rw [if_neg finite, List.getLast?_append, List.getLast?_cons, final]
    rfl

private theorem getLast?_powers (parts : Substituted powerPattern before text result) (char : Char)
    (digit : Text.isDigit (text.getLast?.getD char) = true) :
    Text.isDigit (result.getLast?.getD char) = true := by
  induction parts generalizing char with
  | nil => exact digit
  | @kept before first rest result unmatched later ih =>
    rw [List.getLast?_cons, Option.getD_some] at digit ⊢
    exact ih first digit
  | @replaced before covered rest result found matched length later ih =>
    obtain ⟨base, exponent, -, power⟩ := power_of_covered matched length
    obtain ⟨last, final, digit'⟩ := getLast?_power power
    rw [List.getLast?_append, final, Option.getD_or, Option.getD_some]
    apply ih
    cases known : rest.getLast? with
    | none => exact digit'
    | some last' =>
      rw [List.getLast?_append, known] at digit
      exact digit

private theorem head?_powers (parts : Substituted powerPattern before text result) (positive : PositivePowers (· <+: text))
    (head : text.head? = some char) (digit : Text.isDigit char = true) :
    ∃ first, result.head? = some first ∧ Text.isDigit first = true := by
  cases parts with
  | nil => cases head
  | kept unmatched later => exact ⟨char, head, digit⟩
  | @replaced _ covered rest result found matched length later =>
    obtain ⟨base, exponent, rfl, power⟩ := power_of_covered matched length
    rw [power.found, List.head?_append]
    by_cases finite : (literalPower base exponent).isFinite = true
    · have unsigned := positive.literal power.first power.second (List.prefix_append _ _)
      obtain ⟨first, begins, ascii⟩ := (ends_plain (isPlain_literalText finite unsigned).1).1
      exact ⟨first, by rw [if_pos finite, begins]; rfl, Text.isDigit_of_ascii ascii⟩
    · rw [if_neg finite, ← List.head?_append]
      exact ⟨char, by simpa using head, digit⟩

theorem not_lt_zero (infinite : x.toModel.unpack = .infinity .positive) : ¬ x < 0.0 := by
  intro less
  change Float.lt x 0.0 = true at less
  have below : x.toModel.unpack.lt (0.0 : Float).toModel.unpack = true := of_decide_eq_true less
  rw [infinite] at below
  exact absurd below (by decide)

/-- What is no finite number and has no sign is written in letters. -/
theorem literalText_infinite (unsigned : Unsigned x.toModel.unpack) (infinite : ¬ x.isFinite = true) :
    literalText x = ['n', 'a', 'n'] ∨ literalText x = ['i', 'n', 'f'] := by
  have kinds : x.isNaN = x.toModel.unpack.isNaN ∧ x.isInf = x.toModel.unpack.isInf := ⟨rfl, rfl⟩
  change ¬ x.toModel.unpack.isFinite = true at infinite
  generalize unpacked : x.toModel.unpack = u at unsigned infinite kinds
  cases unsigned with
  | notANumber =>
    left
    rw [literalText, specialName?, kinds.1]
    rfl
  | infinity =>
    right
    rw [literalText, specialName?, kinds.1, kinds.2, if_neg (not_lt_zero unpacked)]
    rfl
  | zero | finite => exact absurd rfl infinite

private theorem head?_literalText (unsigned : Unsigned x.toModel.unpack) :
    ∃ first, (literalText x).head? = some first ∧ (Text.isDigit first = true ∨ Text.isLetter first = true) := by
  by_cases finite : x.isFinite = true
  · obtain ⟨first, begins, ascii⟩ :=
      (ends_plain (isPlain_literalText finite (unsigned_iff.mp unsigned)).1).1
    exact ⟨first, begins, .inl (Text.isDigit_of_ascii ascii)⟩
  · rcases literalText_infinite unsigned finite with written | written <;> rw [written]
    · exact ⟨'n', rfl, .inr (by decide)⟩
    · exact ⟨'i', rfl, .inr (by decide)⟩

private theorem head?_percents (parts : Substituted percentPattern before text result)
    (head : text.head? = some char) (digit : Text.isDigit char = true) :
    ∃ first, result.head? = some first ∧ (Text.isDigit first = true ∨ Text.isLetter first = true) := by
  cases parts with
  | nil => cases head
  | kept unmatched later => exact ⟨char, head, .inl digit⟩
  | @replaced _ covered rest result found matched length later =>
    obtain ⟨numeral, -, -, rfl⟩ := percent_of_covered matched length
    obtain ⟨first, begins, operand⟩ := head?_literalText (unsigned_hundredth numeral)
    exact ⟨first, by rw [List.head?_append, begins]; rfl, operand⟩

private theorem getLast?_computed_digit (final : first.getLast? = some last) (digit : Text.isDigit last = true) :
    ∃ last', (computed first).getLast? = some last' ∧ Text.isDigit last' = true := by
  have powers : Text.isDigit ((foldPowers first).getLast?.getD ')') = true :=
    getLast?_powers (substituted powerPattern_within none first) ')' (by simp [final, digit])
  cases known : (foldPowers first).getLast? with
  | none =>
    rw [known] at powers
    exact absurd powers (by decide)
  | some last' =>
    rw [known] at powers
    have noPercent : (foldPowers first).getLast? ≠ some '%' := by
      rw [known]
      rintro ⟨⟩
      exact absurd powers (by decide)
    exact ⟨last', by rw [computed, getLast?_foldPercents noPercent, known], powers⟩

private theorem head?_computed_digit (positive : PositivePowers (· <+: rest)) (head : rest.head? = some next)
    (digit : Text.isDigit next = true) :
    ∃ next', (computed rest).head? = some next' ∧ (Text.isDigit next' = true ∨ Text.isLetter next' = true) := by
  obtain ⟨first, begins, digit'⟩ := head?_powers (substituted powerPattern_within none rest) positive head digit
  exact head?_percents (substituted percentPattern_within none (foldPowers rest)) begins digit'

/-- Arithmetic on literals keeps to the two sides of a gap and leaves the gap open. -/
theorem computed_gap (final : first.getLast? = some last) (head : rest.head? = some next)
    (gap : productGap last next = ['*']) (positive : PositivePowers (· <+: rest)) :
    computed (first ++ rest) = computed first ++ computed rest ∧
      bridge productGap (computed first).getLast? (computed rest).head? = ['*'] := by
  have operands : (Text.isDigit last = true ∨ last = ')') ∧
      (next = '(' ∨ Text.isLetter next = true) ∨ last = ')' ∧ Text.isDigit next = true := by
    by_contra other
    rw [productGap, if_neg] at gap
    · cases gap
    · tauto
  rcases operands with ⟨closes, opens⟩ | ⟨rfl, digit⟩
  · have foreign : Foreign next := by
      rcases opens with rfl | letter
      · exact foreign_parenthesis.1
      · exact foreign_of_letter letter
    refine ⟨computed_parts foreign (.inr head), ?_⟩
    rw [computed_start foreign head]
    rcases closes with digit | rfl
    · obtain ⟨last', final', digit'⟩ := getLast?_computed_digit final digit
      rw [final']
      rcases opens with rfl | letter <;> simp [bridge, productGap, *]
    · rw [computed_end foreign_parenthesis.2 final]
      rcases opens with rfl | letter <;> simp [bridge, productGap, *]
  · refine ⟨computed_parts foreign_parenthesis.2 (.inl final), ?_⟩
    obtain ⟨next', head', operand⟩ := head?_computed_digit positive head digit
    rw [computed_end foreign_parenthesis.2 final, head']
    rcases operand with digit' | letter <;> simp [bridge, productGap, *]

private theorem fillGaps_star {gap : Char → Char → List Char} (quiet : ∀ char, gap char '*' = [] ∧ gap '*' char = [])
    (first rest : List Char) :
    fillGaps gap (first ++ '*' :: rest) = fillGaps gap first ++ '*' :: fillGaps gap rest := by
  have none : bridge gap first.getLast? (some '*') = [] := by
    cases first.getLast? <;> simp [bridge, quiet]
  have none' : bridge gap (some '*') rest.head? = [] := by
    cases rest.head? <;> simp [bridge, quiet]
  rw [fillGaps_parts, fillGaps_cons, List.head?_cons, none, none']
  rfl

private theorem quiet_star (char : Char) : (percentGap char '*' = [] ∧ percentGap '*' char = []) ∧
    productGap char '*' = [] ∧ productGap '*' char = [] := by
  have noOperand : Text.isDigit '*' = false ∧ Text.isLetter '*' = false := by decide
  simp [percentGap, productGap, noOperand]

/-- A sign that is entered keeps the texts on its two sides apart. -/
theorem prepare_star (left right : List Char) :
    prepare (left ++ '*' :: right) = prepare left ++ '*' :: prepare right := by
  have noLetter : Text.isFoldedLetter '*' = false := by decide
  have cut : Cut (spelled left).getLast? (['*'] ++ spelled right).head? := .inr (by simp [noLetter])
  have cut' : Cut ['*'].getLast? (spelled right).head? := .inl (by simp [noLetter])
  have alone : expandConstants ['*'] = ['*'] := by decide
  have sign : spelled ('*' :: right) = ['*'] ++ spelled right := spelled_append ['*'] right
  have constants : expandConstants (['*'] ++ spelled right) = '*' :: expandConstants (spelled right) := by
    rw [expandConstants_parts cut', alone, List.singleton_append]
  rw [prepare_eq, spelled_append, sign, expandConstants_parts cut, constants,
    fillGaps_star fun char => (quiet_star char).1]
  rfl

/-- Between operands the constants of two texts are expanded apart. -/
theorem prepare_meets (final : left.getLast? = some last) (head : right.head? = some next)
    (meets : Meets last next) :
    ∃ last' next', (prepare left).getLast? = some last' ∧ (prepare right).head? = some next' ∧ Gap last' next' ∧
      prepare (left ++ right) = prepare left ++ (percentGap last' next' ++ prepare right) := by
  obtain ⟨front, rfl⟩ := List.getLast?_eq_some_iff.mp final
  obtain ⟨others, rfl⟩ := List.head?_eq_some_iff.mp head
  have noLetter : Text.isFoldedLetter last = false := by
    rw [← Bool.not_eq_true]
    intro letter
    rcases meets.closes with digit | rfl | rfl | greek
    · simp [noDigit_of_name (.inl letter)] at digit
    · exact absurd letter (by decide)
    · exact absurd letter (by decide)
    · rcases eq_of_isGreekPi greek with rfl | rfl | rfl <;> exact absurd letter (by decide)
  have closing : (spelled (front ++ [last])).getLast? = some last := by
    have operand : spelled [last] = [last] := spelled_operand <| by
      rcases meets.closes with digit | rfl | rfl | greek <;> simp [*]
    rw [spelled_append, operand, List.getLast?_concat]
  have opening : (spelled (next :: others)).head? = some next := by
    have operand : spelled [next] = [next] := spelled_operand <| by
      rcases meets.opens with digit | rfl | letter | greek <;> simp [*]
    rw [← List.singleton_append, spelled_append, operand]
    rfl
  have cut : Cut (spelled (front ++ [last])).getLast? (spelled (next :: others)).head? :=
    .inl (by simp [closing, noLetter])
  obtain ⟨last', next', final', head', gap⟩ := exists_gap closing opening meets
  refine ⟨last', next', ?_, ?_, gap, ?_⟩
  · rw [prepare_eq, getLast?_fillGaps, final']
  · rw [prepare_eq, head?_fillGaps, head']
  · rw [prepare_eq, spelled_append, expandConstants_parts cut, fillGaps_parts, final', head']
    rfl

/-- Where an operand ends and another one begins, a product may be entered or left out: what comes
to the reader is the same text. -/
theorem normalize_juxtaposed {left right : List Char} {last next : Char} (final : left.getLast? = some last)
    (head : right.head? = some next) (meets : Meets last next) (positive : PositivePowers (· <+: prepare right)) :
    normalize (left ++ right) = normalize (left ++ '*' :: right) := by
  obtain ⟨last', next', final', head', gap, joined⟩ := prepare_meets final head meets
  have starred := prepare_star left right
  rcases gap with percent | ⟨noPercent, product⟩
  · have same : prepare (left ++ right) = prepare (left ++ '*' :: right) := by
      rw [joined, starred, percent]
      rfl
    rw [Entry.normalize, same]
    rfl
  · rw [noPercent, List.nil_append] at joined
    obtain ⟨parts, open?⟩ := computed_gap final' head' product positive
    have star : Foreign '*' := ⟨by decide, by decide⟩
    have filled : fillGaps productGap (computed (prepare left) ++ computed (prepare right)) =
        fillGaps productGap (computed (prepare left) ++ '*' :: computed (prepare right)) := by
      rw [fillGaps_parts, open?, fillGaps_star fun char => (quiet_star char).2]
      rfl
    show fillGaps emptyGap (fillGaps productGap (computed (prepare (left ++ right)))) =
      fillGaps emptyGap (fillGaps productGap (computed (prepare (left ++ '*' :: right))))
    rw [joined, starred, parts, computed_foreign star, filled]

private theorem parts_of_square {base exponent : List Char} (numeral : IsNumeral base)
    (numeral' : IsNumeral exponent)
    (begins : base ++ '^' :: exponent <+: '2' :: '^' :: '2' :: '(' :: rest) :
    base = ['2'] ∧ exponent = ['2'] := by
  obtain ⟨others, whole⟩ := begins
  have parts : base ++ '^' :: (exponent ++ others) = ['2'] ++ '^' :: '2' :: '(' :: rest := by simpa using whole
  obtain ⟨rfl, ends⟩ := eq_of_stop (numeral.not_mem (by decide)) (by decide) parts
  have ends' : exponent ++ others = ['2'] ++ '(' :: rest := ends
  obtain ⟨between, digit, -⟩ := exists_between (numeral'.not_mem (by decide)) ends'
  obtain ⟨first, more, rfl⟩ := List.exists_cons_of_ne_nil numeral'.ne_nil
  obtain ⟨rfl, nothing⟩ := List.cons.inj digit
  exact ⟨rfl, by simp [(List.append_eq_nil_iff.mp nothing.symm).1]⟩

theorem normalize_juxtaposed_power :
    Meets ')' '2' ∧ PositivePowers (· <+: prepare "2^2π".toList) ∧
      normalize "(3)2^2π".toList = normalize "(3)*2^2π".toList ∧
      normalize "(3)2^2π".toList = "(3)*4*(3.141592653589793)".toList := by
  have meets : Meets ')' '2' := ⟨.inr (.inl rfl), .inl (by decide), by decide⟩
  have prepared : prepare "2^2π".toList = "2^2(3.141592653589793)".toList := by decide +kernel
  have positive : PositivePowers (· <+: prepare "2^2π".toList) := by
    rw [prepared]
    intro base exponent numeral numeral' begins
    obtain ⟨rfl, rfl⟩ := parts_of_square numeral numeral' begins
    have two : numeralValue ['2'] = 2.0 := by decide +kernel
    exact positivePower_of_own (by simp [two])
  have same := @normalize_juxtaposed "(3)".toList "2^2π".toList ')' '2' rfl rfl meets positive
  exact ⟨meets, positive, same, by decide +kernel⟩

end Reckon.Proofs.UnwrittenProduct
