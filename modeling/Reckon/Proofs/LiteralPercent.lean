import Reckon.Proofs.PercentReading
import Reckon.Proofs.PercentText

/-! A literal with a percent sign means its hundredth, as the literal in parentheses does, where
the sign is all that reaches for the literal. A power that is computed before its exponent's
percent sign, a minus, and a point do reach for it. -/

namespace Reckon.Proofs.LiteralPercent
open Entry Lexer Arranging ExchangedParts LiteralPlace LiteralPower NumeralText PercentReading PercentText
  PowerFolding PowerSign ReadText Scanning

def direct (left numeral right : List Char) : List Char :=
  left ++ (numeral ++ '%' :: right)

def grouped (left numeral right : List Char) : List Char :=
  left ++ '(' :: (numeral ++ ')' :: '%' :: right)

/-- The literal is the exponent of a power that is computed before percent signs are. -/
def Powered (left numeral : List Char) : Prop :=
  ∃ front base, prepare left = front ++ (base ++ ['^']) ∧ IsNumeral base ∧
    ¬ (front.getLast? = some '^' ∨ touchesNumeral front.getLast? = true) ∧
    (literalPower base numeral).isFinite = true

variable {config : Config} {mode : AngleMode} {left numeral right rest : List Char}

private theorem direct_eq (left numeral right : List Char) :
    direct left numeral right = left ++ (numeral ++ ['%'] ++ right) := by
  simp [direct]

private theorem grouped_eq (left numeral right : List Char) :
    grouped left numeral right = left ++ ('(' :: (numeral ++ [')', '%']) ++ right) := by
  simp [grouped]

/-- Only the literal itself can be the exponent that a text before it waits for. -/
theorem infinite_of_spans (plain : IsPlain numeral) (unpowered : ¬ Powered left numeral)
    {front suffix base exponent : List Char} (parts : prepareBefore left = front ++ suffix)
    (spans : Spans front.getLast? suffix (numeral ++ ['%'] ++ rest) base exponent) :
    (literalPower base exponent).isFinite = false := by
  obtain ⟨rfl, ⟨others, begins, stops⟩, apart, first, second⟩ := spans
  have split := second.splitNumeral stops
  have sign : touchesNumeral (some '%') = false := by decide
  have split' := @IsNumeral.splitNumeral ('%' :: rest) _ (isNumeral_of_isPlain plain) sign
  rw [← begins, List.append_assoc, List.singleton_append, split'] at split
  obtain ⟨rfl, -⟩ := Prod.mk.inj split
  rw [← Bool.not_eq_true]
  intro finite
  have whole : prepareBefore left = prepare left := by
    unfold prepareBefore at parts ⊢
    split
    case isTrue percent =>
      rw [if_pos percent, ← List.append_assoc] at parts
      obtain ⟨-, same⟩ := List.append_inj' parts rfl
      cases same
    case isFalse => rw [List.append_nil]
  exact unpowered ⟨front, base, whole ▸ parts, first, apart, finite⟩

private theorem no_spans {front : Option Char} {suffix base exponent : List Char} :
    ¬ Spans front suffix ('(' :: rest) base exponent := by
  rintro ⟨-, ⟨others, begins, -⟩, -, -, second⟩
  obtain ⟨char, more, rfl⟩ := List.exists_cons_of_ne_nil second.ne_nil
  obtain ⟨rfl, -⟩ := List.cons.inj begins
  exact absurd (second.chars '(' (by simp)) (by decide)

private theorem noNumeral_of_noDigit {char : Char} (noDigit : Text.isDigit char = false) (noPoint : char ≠ '.') :
    isNumeralChar char = false := by
  rw [← Bool.not_eq_true]
  intro numeral
  have touches := touchesNumeral_of_char numeral
  simp [touchesNumeral, noDigit, noPoint] at touches

private theorem opens_ahead {items : List Lexeme} {last : Pending} (free : Free (ahead left))
    (noPercent : (ahead left).getLast? ≠ some '%') (noClosing : (ahead left).getLast? ≠ some ')')
    (scanned : scan none 0 .nothing (ahead left) = .ok (items, last)) :
    opensOperand (ahead left).getLast? = true := by
  rcases List.eq_nil_or_concat' (ahead left) with empty | ⟨front, char, parts⟩
  · rw [empty]
    rfl
  · rw [Free, parts, List.getLast?_concat] at free
    rw [parts, List.getLast?_concat] at noPercent noClosing ⊢
    rw [parts] at scanned
    obtain ⟨noLetter, noDigit, noPoint⟩ := free char rfl
    refine opensOperand_of_scan scanned (noNumeral_of_noDigit noDigit noPoint) noLetter ⟨?_, ?_⟩
    · rintro rfl
      exact noClosing rfl
    · rintro rfl
      exact noPercent rfl

/-- What follows the percent signs behind an operand lets go of a sign before the operand. -/
theorem follows_percents {others : List Lexeme} (visible : ∀ char ∈ rest, Text.isBlank char = false)
    (noPercent : rest.head? ≠ some '%') (loose : ∀ next ∈ rest.head?, next ≠ '^' ∧ next ≠ '.')
    (behind : Behind (afterwards rest) others) :
    ∀ next ∈ others.head?, next = .closing ∨ ∃ operator, next = .binary operator ∧ operator ≠ .power := by
  have kept (char : Char) (head : (afterwards rest).head? = some char) (other : char ≠ '*' ∧ char ≠ '/') :
      rest.head? = some char := by
    obtain ⟨-, -, -, written⟩ := head?_afterwards visible head
    exact (written.resolve_left other.1).resolve_left other.2
  have fresh : ∀ char ∈ (afterwards rest).head?, isNumeralChar char = false ∧ Text.isLetter char = false := by
    intro char head
    obtain ⟨noDigit, -, noLetter, -⟩ := head?_afterwards visible head
    refine ⟨noNumeral_of_noDigit noDigit ?_, noLetter⟩
    rintro rfl
    exact (loose '.' (kept '.' head (by decide))).2 rfl
  have noOperand : ∀ char ∈ (afterwards rest).head?, char ≠ '(' ∧ char ≠ '%' := by
    intro char head
    refine ⟨(head?_afterwards visible head).2.1, ?_⟩
    rintro rfl
    exact noPercent (kept '%' head (by decide))
  intro next first
  refine (follows_of_behind behind fresh noOperand next first).imp_right ?_
  rintro ⟨operator, same, head⟩
  refine ⟨operator, same, ?_⟩
  rintro rfl
  exact (loose '^' (kept '^' head (by decide))).1 rfl

private theorem percents_spec (right : List Char) :
    right = List.replicate (right.takeWhile (· == '%')).length '%' ++ right.dropWhile (· == '%') ∧
      (right.dropWhile (· == '%')).head? ≠ some '%' := by
  constructor
  · have signs : right.takeWhile (· == '%') = List.replicate (right.takeWhile (· == '%')).length '%' :=
      List.eq_replicate_of_mem fun char member => by simpa using List.mem_takeWhile_imp member
    rw [← signs, List.takeWhile_append_dropWhile]
  · intro head
    have other := List.head?_dropWhile_not (· == '%') right
    simp [head] at other

private theorem compute_percent (visible : ∀ char ∈ left, Text.isBlank char = false)
    (visible' : ∀ char ∈ right, Text.isBlank char = false) (plain : IsPlain numeral) (free : Free left)
    (finite : (numeralValue numeral / 100.0).isFinite = true) (unpowered : ¬ Powered left numeral)
    (noPoint : right.head? ≠ some '.')
    (unsigned : endsInSign (normalize left).reverse = true →
      ∀ next ∈ (right.dropWhile (· == '%')).head?, next ≠ '^' ∧ next ≠ '.') :
    SameAnswer (compute mode (direct left numeral right)) (compute mode (grouped left numeral right)) := by
  have literal := isLiteral_of_isPlain plain
  have positive : isNegative (numeralValue numeral / 100.0) = false :=
    QuotientSign.unsigned_iff.mp (QuotientSign.unsigned_hundredth numeral)
  obtain ⟨hundredth, literal'⟩ := isPlain_literalText finite positive
  rw [compute_eq_execute, compute_eq_execute, direct_eq, grouped_eq,
    normalize_middle (passes_literal plain hundredth) visible visible' free
      fun _ _ _ _ parts spans => infinite_of_spans plain unpowered parts spans,
    normalize_middle (passes_group plain) visible visible' free fun _ _ _ _ _ spans => absurd spans no_spans]
  cases scanned : scan none 0 .nothing (ahead left) with
  | error cause => exact sameAnswer_of_unread scanned _ _
  | ok read =>
    obtain ⟨items, last⟩ := read
    obtain ⟨free', noPercent, noClosing, behindMinus⟩ := ends_ahead visible free
    obtain ⟨rfl, awaits⟩ := scan_opens scanned (opens_ahead free' noPercent noClosing scanned)
    have stops : ∀ char ∈ (afterwards right).head?, isNumeralChar char = false := by
      intro char head
      obtain ⟨noDigit, -, -, written⟩ := head?_afterwards visible' head
      refine noNumeral_of_noDigit noDigit ?_
      rintro rfl
      exact noPoint ((written.resolve_left (by decide)).resolve_left (by decide))
    refine sameAnswer_of_read scanned (readAs_literal hundredth literal' _ stops) (readAs_group literal _)
      fun rest behind => ?_
    obtain ⟨percents, noPercent'⟩ := percents_spec right
    rw [percents, afterwards_percents] at behind
    obtain ⟨others, rfl, behind'⟩ := behind_percents _ behind
    refine carryOut_group awaits _ _ fun negative => follows_percents ?_ noPercent' ?_ behind'
    · exact fun char member => visible' char ((List.dropWhile_suffix _).subset member)
    · have minus := head?_of_endsInSign negative
      rw [List.head?_reverse] at minus
      exact unsigned (behindMinus minus ▸ negative)

private theorem shape_inExpression (text : String) (failure : Failure) :
    shape (failure.inExpression text) = shape failure := by
  cases failure <;> rfl

private theorem sameAnswer_evaluate {first second : List Char} {char : Char}
    (fits : config.maxLength.below? (.integer first.length) = some false)
    (fits' : config.maxLength.below? (.integer second.length) = some false)
    (member : char ∈ first) (member' : char ∈ second) (visible : Text.isBlank char = false)
    (balanced : isBalanced first = isBalanced second)
    (same : SameAnswer (compute mode first) (compute mode second)) :
    SameAnswer (evaluate config mode (some (String.ofList first)))
      (evaluate config mode (some (String.ofList second))) := by
  unfold evaluate
  rw [enteredText_of_visible member visible, enteredText_of_visible member' visible]
  simp only [String.length_ofList, fits, fits', String.toList_ofList, balanced]
  cases isBalanced second with
  | false => rfl
  | true =>
    simp only [Bool.not_true, Bool.false_eq_true, if_false]
    cases left : compute mode first <;> cases right : compute mode second <;> rw [left, right] at same
    case error.error failure failure' =>
      have kinds : shape failure = shape failure' := Except.error.inj same
      show Except.error (shape (failure.inExpression _)) = Except.error (shape (failure'.inExpression _))
      rw [shape_inExpression, shape_inExpression, kinds]
    case error.ok => cases same
    case ok.error => cases same
    case ok.ok =>
      obtain rfl := Except.ok.inj same
      rfl

private theorem isBalanced_grouped (plain : IsPlain numeral) (left right : List Char) :
    isBalanced (direct left numeral right) = isBalanced (grouped left numeral right) := by
  have inside : ∀ char ∈ numeral, char ≠ '(' ∧ char ≠ ')' := by
    intro char member
    have numeral := (isLiteral_of_isPlain plain).chars char member
    constructor <;> rintro rfl <;> exact absurd numeral (by decide)
  have sign : Level ['%'] := level_of_plain (by decide)
  have level : Level (numeral ++ ['%']) := (level_of_plain inside).append sign
  have level' : Level ('(' :: (numeral ++ [')', '%'])) := by
    simpa using (level_of_plain inside).group.append sign
  have skips {part : List Char} (level : Level part) (depth : Nat) :
      openAfter depth (part ++ right) = openAfter depth right := by
    rw [openAfter_append, level depth]
    rfl
  unfold isBalanced
  rw [direct_eq, grouped_eq, openAfter_append, openAfter_append]
  simp only [skips level, skips level']

/-- A percent sign behind a literal means what it means behind the literal in parentheses, if the
hundredth is a finite number, no power is computed with the literal first, no point follows the
sign, and where a minus stands before the literal, no power follows its percent signs. -/
theorem percent_behind_literal {config : Config} {mode : AngleMode} {left numeral right : List Char}
    (visible : ∀ char ∈ left ++ right, Text.isBlank char = false) (plain : IsPlain numeral)
    (free : Free left)
    (fits : config.maxLength.below? (.integer (direct left numeral right).length) = some false)
    (fits' : config.maxLength.below? (.integer (grouped left numeral right).length) = some false)
    (finite : (numeralValue numeral / 100.0).isFinite = true) (unpowered : ¬ Powered left numeral)
    (noPoint : right.head? ≠ some '.')
    (unsigned : endsInSign (normalize left).reverse = true →
      ∀ next ∈ (right.dropWhile (· == '%')).head?, next ≠ '^' ∧ next ≠ '.') :
    SameAnswer (evaluate config mode (some (String.ofList (direct left numeral right))))
      (evaluate config mode (some (String.ofList (grouped left numeral right)))) := by
  rw [List.forall_mem_append] at visible
  have blank : Text.isBlank '%' = false := by decide
  exact sameAnswer_evaluate fits fits' (by simp [direct]) (by simp [grouped]) blank
    (isBalanced_grouped plain left right)
    (compute_percent visible.1 visible.2 plain free finite unpowered noPoint unsigned)

theorem percent_behind_literal_factor :
    SameAnswer (evaluate {} .degrees (some "2*50%^2")) (evaluate {} .degrees (some "2*(50)%^2")) ∧
      (evaluate {} .degrees (some "2*50%^2")).toOption = some 0.5 := by
  have unpowered : ¬ Powered "2*".toList "50".toList := by
    rintro ⟨front, base, parts, -⟩
    have ends := congrArg List.getLast? parts
    rw [← List.append_assoc, List.getLast?_concat] at ends
    exact absurd ends (by decide)
  have plain : IsPlain "50".toList := ⟨['5', '0'], [], rfl, by decide, by decide⟩
  have free : Free "2*".toList := by
    unfold Free
    decide
  have same := @percent_behind_literal {} .degrees "2*".toList "50".toList "^2".toList (by decide) plain
    free (by decide) (by decide) (by decide +kernel) unpowered (by decide) (by decide)
  exact ⟨same, by decide +kernel⟩

end Reckon.Proofs.LiteralPercent
