import Mathlib
import Reckon.Entry

/-! What the patterns of arithmetic match, and how a substitution goes on behind a match and
behind what it keeps. -/

namespace Reckon.Entry

variable {pattern : Pattern} {before beside : Option Char}
  {text first rest covered base numeral : List Char} {found : Match}

theorem substituteFrom_append (before : Option Char)
    (never : ∀ before suffix, suffix ≠ [] → suffix <:+ first → pattern before (suffix ++ rest) = none) :
    substituteFrom pattern before 0 (first ++ rest) =
      first ++ substituteFrom pattern (first.getLast?.or before) 0 rest := by
  induction first generalizing before with
  | nil => rfl
  | cons char first ih =>
    have none := never before (char :: first) (by simp) List.suffix_rfl
    have later := ih (some char)
      fun before suffix some inside => never before suffix some (inside.trans (List.suffix_cons ..))
    rw [List.cons_append] at none
    simp only [List.cons_append, substituteFrom, none, later]
    cases first <;> simp [List.getLast?_cons]

theorem substituteFrom_beside (same : pattern before rest = pattern beside rest) :
    substituteFrom pattern before 0 rest = substituteFrom pattern beside 0 rest := by
  cases rest <;> simp [substituteFrom, same]

private theorem substituteFrom_covered (before : Option Char) (covered rest : List Char) :
    substituteFrom pattern before covered.length (covered ++ rest) =
      substituteFrom pattern (covered.getLast?.or before) 0 rest := by
  induction covered generalizing before with
  | nil => rfl
  | cons char covered ih =>
    rw [List.cons_append, List.length_cons, substituteFrom, ih]
    cases covered <;> simp [List.getLast?_cons]

theorem substituteFrom_replaced (matched : pattern before (covered ++ rest) = some found)
    (length : covered.length = found.further + 1) :
    substituteFrom pattern before 0 (covered ++ rest) =
      found.replacement ++ substituteFrom pattern covered.getLast? 0 rest := by
  obtain ⟨char, others, rfl⟩ := List.exists_cons_of_length_eq_add_one length
  have further : others.length = found.further := by simpa using length
  rw [List.cons_append] at matched ⊢
  simp only [substituteFrom, matched, ← further, substituteFrom_covered]
  cases others <;> simp [List.getLast?_cons]

theorem substituteFrom_inside {covered : List Char}
    (inside : ∀ char ∈ covered, ∀ text, pattern (some char) text = none)
    (first : pattern before (covered ++ rest) = none) (filled : covered ≠ []) :
    substituteFrom pattern before 0 (covered ++ rest) =
      covered ++ substituteFrom pattern covered.getLast? 0 rest := by
  induction covered generalizing before with
  | nil => exact absurd rfl filled
  | cons char covered ih =>
    rw [List.cons_append] at first ⊢
    rw [List.forall_mem_cons] at inside
    simp only [substituteFrom, first]
    cases covered with
    | nil => rfl
    | cons next covered => rw [ih inside.2 (inside.1 _) (by simp), List.getLast?_cons_cons]; rfl

/-- A part that does not have a character stands before it as a whole. -/
theorem exists_between {char : Char} {front others : List Char} (none : char ∉ first)
    (same : first ++ rest = front ++ char :: others) :
    ∃ between, front = first ++ between ∧ rest = between ++ char :: others := by
  rcases List.append_eq_append_iff.mp same with ⟨between, whole, tails⟩ | ⟨between, whole, tails⟩
  · exact ⟨between, whole, tails⟩
  · cases between with
    | nil => exact ⟨[], by simpa using whole.symm, tails.symm⟩
    | cons next between =>
      obtain ⟨rfl, -⟩ := List.cons.inj tails
      exact absurd (by simp [whole]) none

theorem eq_of_stop {stop : Char} {second others : List Char} (none : stop ∉ first) (none' : stop ∉ second)
    (same : first ++ stop :: rest = second ++ stop :: others) : first = second ∧ rest = others := by
  obtain ⟨between, rfl, tails⟩ := exists_between none same
  cases between with
  | nil => exact ⟨(List.append_nil _).symm, (List.cons.inj tails).2⟩
  | cons next between =>
    obtain ⟨rfl, -⟩ := List.cons.inj tails
    exact absurd (by simp) none'

private theorem span_spec {text digits rest : List Char}
    (cut : text.span Text.isDigit = (digits, rest)) :
    digits ++ rest = text ∧ ∀ char ∈ digits, Text.isDigit char = true := by
  rw [List.span_eq_takeWhile_dropWhile, Prod.mk.injEq] at cut
  obtain ⟨rfl, rfl⟩ := cut
  exact ⟨List.takeWhile_append_dropWhile, fun _ => List.mem_takeWhile_imp⟩

inductive Splits (text : List Char) : List Char × List Char → Prop
  | none : Splits text ([], text)
  | whole {digits rest : List Char} (filled : digits ≠ [])
      (inside : ∀ char ∈ digits, Text.isDigit char = true) (parts : digits ++ rest = text) :
      Splits text (digits, rest)
  | full {whole fraction rest : List Char} (filled : whole ≠ []) (filled' : fraction ≠ [])
      (inside : ∀ char ∈ whole, Text.isDigit char = true)
      (inside' : ∀ char ∈ fraction, Text.isDigit char = true)
      (parts : whole ++ '.' :: fraction ++ rest = text) : Splits text (whole ++ '.' :: fraction, rest)

private theorem splitNumeral_splits (text : List Char) : Splits text (splitNumeral text) := by
  unfold splitNumeral
  split
  case h_1 => exact .none
  case h_2 whole after filled cut =>
    obtain ⟨parts, inside⟩ := span_spec cut
    split
    case h_1 => exact .whole filled inside parts
    case h_2 fraction rest filled' cut' =>
      obtain ⟨parts', inside'⟩ := span_spec cut'
      subst parts'
      exact .full filled filled' inside inside' (by simpa using parts)
  case h_3 whole rest filled _ cut =>
    obtain ⟨parts, inside⟩ := span_spec cut
    exact .whole filled inside parts

/-- A literal in the digits of any script, with digits on both sides of its point. -/
def IsNumeral (text : List Char) : Prop :=
  ∃ whole fraction, text = whole ++ Decimal.fraction fraction ∧ whole ≠ [] ∧
    ∀ char ∈ whole ++ fraction, Text.isDigit char = true

private theorem span_digits (inside : ∀ char ∈ base, Text.isDigit char = true)
    (ends : ∀ char ∈ rest.head?, Text.isDigit char = false) :
    (base ++ rest).span Text.isDigit = (base, rest) := by
  rw [List.span_eq_takeWhile_dropWhile, List.takeWhile_append_of_pos inside,
    List.dropWhile_append_of_pos inside]
  cases rest with
  | nil => simp
  | cons char rest => simp [ends char rfl]

theorem touchesNumeral_eq_false {beside : Option Char} :
    touchesNumeral beside = false ↔ ∀ char ∈ beside, Text.isDigit char = false ∧ char ≠ '.' := by
  cases beside <;> simp [touchesNumeral]

theorem IsNumeral.ne_nil (numeral : IsNumeral text) : text ≠ [] := by
  obtain ⟨whole, fraction, rfl, filled, -⟩ := numeral
  simp [filled]

theorem IsNumeral.chars (numeral : IsNumeral text) :
    ∀ char ∈ text, Text.isDigit char = true ∨ char = '.' := by
  obtain ⟨whole, fraction, rfl, -, digits⟩ := numeral
  rw [List.forall_mem_append] at digits
  intro char member
  rcases List.mem_append.mp member with left | right
  · exact .inl (digits.1 char left)
  · cases fraction with
    | nil => cases right
    | cons digit others => exact (List.mem_cons.mp right).elim .inr fun right => .inl (digits.2 char right)

theorem IsNumeral.not_mem {char : Char} (numeral : IsNumeral text)
    (other : ¬ (Text.isDigit char = true ∨ char = '.')) : char ∉ text :=
  fun member => other (numeral.chars char member)

theorem IsNumeral.head? (numeral : IsNumeral base) (rest : List Char) :
    ∀ char ∈ (base ++ rest).head?, Text.isDigit char = true := by
  obtain ⟨whole, fraction, rfl, filled, digits⟩ := numeral
  obtain ⟨first, others, rfl⟩ := List.exists_cons_of_ne_nil filled
  rintro char ⟨⟩
  exact digits first (by simp)

theorem IsNumeral.getLast? (numeral : IsNumeral text) :
    ∃ digit, text.getLast? = some digit ∧ Text.isDigit digit = true := by
  obtain ⟨whole, fraction, rfl, filled, digits⟩ := numeral
  cases fraction with
  | nil =>
    rw [List.append_nil] at digits
    refine ⟨whole.getLast filled, ?_, digits _ (List.getLast_mem filled)⟩
    rw [Decimal.fraction, List.append_nil, List.getLast?_eq_some_getLast filled]
  | cons digit others =>
    have some : digit :: others ≠ [] := by simp
    refine ⟨(digit :: others).getLast some, ?_,
      digits _ (List.mem_append_right _ (List.getLast_mem some))⟩
    have written : Decimal.fraction (digit :: others) = '.' :: (digit :: others) := rfl
    rw [written, List.getLast?_append_cons, List.getLast?_cons_cons,
      List.getLast?_eq_some_getLast some]

/-- A literal is taken as a whole from the head of a text that it does not run on into. -/
theorem IsNumeral.splitNumeral (numeral : IsNumeral base) (stops : touchesNumeral rest.head? = false) :
    splitNumeral (base ++ rest) = (base, rest) := by
  rw [touchesNumeral_eq_false] at stops
  have noDigit : ∀ char ∈ rest.head?, Text.isDigit char = false := fun char head => (stops char head).1
  obtain ⟨whole, fraction, rfl, filled, digits⟩ := numeral
  rw [List.forall_mem_append] at digits
  obtain ⟨first, others, rfl⟩ := List.exists_cons_of_ne_nil filled
  cases fraction with
  | nil =>
    have cut := span_digits digits.1 noDigit
    rw [Decimal.fraction, List.append_nil, Entry.splitNumeral, cut]
    cases rest with
    | nil => rfl
    | cons char rest =>
      have noPoint := (stops char rfl).2
      split
      case h_1 same => simp at same
      case h_2 same => simp_all
      case h_3 same => simpa using same.symm
  | cons digit more =>
    have noPoint : Text.isDigit '.' = false := by decide
    have cut : (first :: others ++ '.' :: (digit :: more ++ rest)).span Text.isDigit =
        (first :: others, '.' :: (digit :: more ++ rest)) :=
      span_digits digits.1 (by simpa using noPoint)
    have cut' : (digit :: more ++ rest).span Text.isDigit = (digit :: more, rest) :=
      span_digits digits.2 noDigit
    simp only [Decimal.fraction, List.append_assoc, List.cons_append] at cut cut' ⊢
    simp only [Entry.splitNumeral, cut, cut']
    rfl

private theorem isNumeral_of_splitNumeral (split : splitNumeral text = (numeral, rest)) (filled : numeral ≠ []) :
    IsNumeral numeral ∧ numeral ++ rest = text := by
  have splits := splitNumeral_splits text
  rw [split] at splits
  cases splits with
  | none => exact absurd rfl filled
  | whole filled inside parts =>
    exact ⟨⟨numeral, [], by simp [Decimal.fraction], filled, by simpa using inside⟩, parts⟩
  | @full whole fraction _ some some' inside inside' parts =>
    refine ⟨⟨whole, fraction, ?_, some, List.forall_mem_append.mpr ⟨inside, inside'⟩⟩, parts⟩
    obtain ⟨digit, others, rfl⟩ := List.exists_cons_of_ne_nil some'
    rfl

theorem splitNumeral_nil {char : Char} (noDigit : Text.isDigit char = false) :
    splitNumeral (char :: rest) = ([], char :: rest) := by
  simp [Entry.splitNumeral, List.span, List.span.loop, noDigit]

private theorem stops_power : touchesNumeral (some '^') = false := by decide

private theorem stops_percent : touchesNumeral (some '%') = false := by decide

def literalPower (base exponent : List Char) : Float :=
  power (numeralValue base) (numeralValue exponent)

/-- A power of two literals that nothing beside it belongs to, and what replaces it. -/
structure PowerMatch (before : Option Char) (base exponent rest : List Char) (found : Match) :
    Prop where
  apart : ¬ (before = some '^' ∨ touchesNumeral before = true)
  first : IsNumeral base
  second : IsNumeral exponent
  ends : touchesNumeral rest.head? = false
  found : found = ⟨base.length + exponent.length,
    if (literalPower base exponent).isFinite then literalText (literalPower base exponent)
    else base ++ '^' :: exponent⟩

theorem powerPattern_eq_some_iff :
    powerPattern before text = some found ↔ ∃ base exponent rest,
      text = base ++ '^' :: (exponent ++ rest) ∧ PowerMatch before base exponent rest found := by
  constructor
  · intro matched
    unfold powerPattern at matched
    split at matched
    case isTrue => cases matched
    case isFalse apart =>
      split at matched
      case h_1 => cases matched
      case h_3 => cases matched
      case h_2 base after filled split =>
        obtain ⟨first, parts⟩ := isNumeral_of_splitNumeral split filled
        split at matched
        case h_1 => cases matched
        case h_2 exponent rest filled' split' =>
          obtain ⟨second, parts'⟩ := isNumeral_of_splitNumeral split' filled'
          split at matched
          case isTrue => cases matched
          case isFalse ends =>
            refine ⟨base, exponent, rest, by rw [parts', parts], apart, first, second, ?_, ?_⟩
            · simpa using ends
            · exact (Option.some.inj matched).symm
  · rintro ⟨base, exponent, rest, rfl, apart, first, second, ends, rfl⟩
    have split := @IsNumeral.splitNumeral ('^' :: (exponent ++ rest)) _ first stops_power
    have split' := second.splitNumeral ends
    obtain ⟨char, others, rfl⟩ := List.exists_cons_of_ne_nil first.ne_nil
    obtain ⟨char', others', rfl⟩ := List.exists_cons_of_ne_nil second.ne_nil
    unfold powerPattern
    rw [if_neg apart, split]
    simp only [split', ends]
    rfl

theorem percentPattern_eq_some_iff :
    percentPattern before text = some found ↔ ∃ numeral rest, text = numeral ++ '%' :: rest ∧
      touchesNumeral before = false ∧ IsNumeral numeral ∧
        found = ⟨numeral.length, literalText (numeralValue numeral / 100.0)⟩ := by
  constructor
  · intro matched
    unfold percentPattern at matched
    split at matched
    case isTrue => cases matched
    case isFalse apart =>
      split at matched
      case h_1 => cases matched
      case h_3 => cases matched
      case h_2 numeral rest filled split =>
        obtain ⟨whole, parts⟩ := isNumeral_of_splitNumeral split filled
        exact ⟨numeral, rest, parts.symm, by simpa using apart, whole, (Option.some.inj matched).symm⟩
  · rintro ⟨numeral, rest, rfl, apart, whole, rfl⟩
    have split := @IsNumeral.splitNumeral ('%' :: rest) _ whole stops_percent
    obtain ⟨char, others, rfl⟩ := List.exists_cons_of_ne_nil whole.ne_nil
    unfold percentPattern
    rw [apart, if_neg Bool.false_ne_true, split]
    rfl

theorem powerPattern_within (before : Option Char) (text : List Char) (found : Match)
    (matched : powerPattern before text = some found) : found.further < text.length := by
  obtain ⟨base, exponent, rest, rfl, -, -, -, -, rfl⟩ := powerPattern_eq_some_iff.mp matched
  simp only [List.length_append, List.length_cons]
  omega

theorem percentPattern_within (before : Option Char) (text : List Char) (found : Match)
    (matched : percentPattern before text = some found) : found.further < text.length := by
  obtain ⟨numeral, rest, rfl, -, -, rfl⟩ := percentPattern_eq_some_iff.mp matched
  simp

theorem powerPattern_eq_none {char : Char} (noDigit : Text.isDigit char = false) :
    powerPattern before (char :: rest) = none := by
  rw [Option.eq_none_iff_forall_ne_some]
  intro found matched
  obtain ⟨base, exponent, others, parts, power⟩ := powerPattern_eq_some_iff.mp matched
  have digit := power.first.head? ('^' :: (exponent ++ others)) char (parts ▸ rfl)
  rw [noDigit] at digit
  cases digit

theorem percentPattern_eq_none {char : Char} (noDigit : Text.isDigit char = false) :
    percentPattern before (char :: rest) = none := by
  rw [Option.eq_none_iff_forall_ne_some]
  intro found matched
  obtain ⟨numeral, others, parts, -, whole, -⟩ := percentPattern_eq_some_iff.mp matched
  have digit := whole.head? ('%' :: others) char (parts ▸ rfl)
  rw [noDigit] at digit
  cases digit

theorem power_of_covered (matched : powerPattern before (covered ++ rest) = some found)
    (length : covered.length = found.further + 1) :
    ∃ base exponent, covered = base ++ '^' :: exponent ∧ PowerMatch before base exponent rest found := by
  obtain ⟨base, exponent, others, parts, power⟩ := powerPattern_eq_some_iff.mp matched
  have parts' : covered ++ rest = (base ++ '^' :: exponent) ++ others := by simpa using parts
  have count : covered.length = (base ++ '^' :: exponent).length := by
    simp only [length, power.found, List.length_append, List.length_cons]
    omega
  obtain ⟨rfl, rfl⟩ := List.append_inj parts' count
  exact ⟨base, exponent, rfl, power⟩

theorem percent_of_covered (matched : percentPattern before (covered ++ rest) = some found)
    (length : covered.length = found.further + 1) :
    ∃ numeral, covered = numeral ++ ['%'] ∧ IsNumeral numeral ∧
      found = ⟨numeral.length, literalText (numeralValue numeral / 100.0)⟩ := by
  obtain ⟨numeral, others, parts, -, whole, rfl⟩ := percentPattern_eq_some_iff.mp matched
  have parts' : covered ++ rest = (numeral ++ ['%']) ++ others := by simpa using parts
  obtain ⟨rfl, rfl⟩ := List.append_inj parts' (by simp [length])
  exact ⟨numeral, rfl, whole, rfl⟩

theorem powerPattern_inside {char : Char} (inside : Text.isDigit char = true ∨ char = '.' ∨ char = '^')
    (text : List Char) : powerPattern (some char) text = none := by
  unfold powerPattern
  rw [if_pos]
  rcases inside with digit | rfl | rfl
  · simp [touchesNumeral, digit]
  · exact .inr (by decide)
  · exact .inl rfl


end Reckon.Entry
