import Reckon.Proofs.FilledGaps
import Reckon.Proofs.PowerFolding
import Reckon.Proofs.QuotientSign

/-! All the powers of a text that are computed before it is read. One after the other gives
way to its value, from the end of the text to its beginning, and the value of the text stays
what it was. -/

namespace Reckon.Proofs.FoldedText
open Entry Lexer Arranging FilledGaps LiteralPlace LiteralPower NumeralText PowerFolding PowerSign
open QuotientSign

/-- A literal to which a power sign belongs stands directly behind a minus that is a sign. -/
def SignedBase (text : List Char) : Prop :=
  ∃ front base rest, text = front ++ '-' :: (base ++ '^' :: rest) ∧
    opensOperand front.getLast? = true ∧ IsPlain base

/-- Every two literals that are written as a power have a positive one. -/
def PositivePowers (written : List Char → Prop) : Prop :=
  ∀ base exponent, IsNumeral base → IsNumeral exponent → written (base ++ '^' :: exponent) →
    PositivePower (numeralValue base) (numeralValue exponent)

variable {pattern : Pattern} {before : Option Char} {left text result covered rest : List Char}
  {found : Match} {mode : AngleMode}

theorem PositivePowers.literal {written : List Char → Prop} {base exponent : List Char}
    (positive : PositivePowers written) (first : IsNumeral base) (second : IsNumeral exponent)
    (stands : written (base ++ '^' :: exponent)) : isNegative (literalPower base exponent) = false :=
  positive base exponent first second stands (unsigned_iff.mp (unsigned_numeralValue base))
    (unsigned_iff.mp (unsigned_numeralValue exponent))

theorem SameAnswer.trans {first second third : Except Failure Float} (left : SameAnswer first second)
    (right : SameAnswer second third) : SameAnswer first third :=
  Eq.trans left right

private theorem noPercent_result (parts : Substituted powerPattern before text result)
    (noPercent : '%' ∉ text) : '%' ∉ result := by
  induction parts with
  | nil => exact noPercent
  | kept unmatched later ih =>
    simp only [List.mem_cons, not_or] at noPercent ⊢
    exact ⟨noPercent.1, ih noPercent.2⟩
  | replaced matched length later ih =>
    simp only [List.mem_append, not_or] at noPercent ⊢
    exact ⟨(literals_of_powerPattern matched).noPercent, ih noPercent.2⟩

/-- A match begins with a digit, so a text that begins otherwise keeps its beginning. -/
private theorem touches_result (parts : Substituted powerPattern before text result)
    (ends : touchesNumeral text.head? = false) : touchesNumeral result.head? = false := by
  have free : ∀ first ∈ text.head?, ¬ Text.isDigit first = true := by
    intro first head
    simp [(touchesNumeral_eq_false.mp ends first head).1]
  rwa [head?_substituted parts (fun _ _ _ matched => (literals_of_powerPattern matched).digit) free]

private theorem power_of_matched (matched : powerPattern before (covered ++ rest) = some found)
    (length : covered.length = found.further + 1) (ascii : ∀ char ∈ covered, char.toNat < 128) :
    ∃ base exponent, covered = base ++ '^' :: exponent ∧ IsPlain base ∧ IsPlain exponent ∧
      ¬ (before = some '^' ∨ touchesNumeral before = true) ∧ touchesNumeral rest.head? = false ∧
      found.replacement = if (literalPower base exponent).isFinite
        then literalText (literalPower base exponent) else covered := by
  obtain ⟨base, exponent, rfl, apart, first, second, ends, rfl⟩ := power_of_covered matched length
  simp only [List.forall_mem_append, List.forall_mem_cons] at ascii
  exact ⟨base, exponent, rfl, isPlain_of_ascii first ascii.1, isPlain_of_ascii second ascii.2.2,
    apart, ends, rfl⟩

/-- Behind a text that is kept, the powers of the rest may give way to their values. -/
theorem sameAnswer_of_substituted (parts : Substituted powerPattern before text result)
    (place : before = left.getLast?) (ascii : ∀ char ∈ text, char.toNat < 128)
    (noPercent : '%' ∉ left ++ text) (unsigned : ¬ SignedBase (left ++ text))
    (positive : PositivePowers (· <:+: left ++ text)) :
    SameAnswer (execute mode (complete (left ++ text))) (execute mode (complete (left ++ result))) := by
  induction parts generalizing left with
  | nil => rfl
  | @kept before char rest result unmatched later ih =>
    have split (others : List Char) : left ++ char :: others = left ++ [char] ++ others := by simp
    rw [split] at noPercent unsigned positive ⊢
    rw [split result]
    rw [List.forall_mem_cons] at ascii
    exact ih (by simp) ascii.2 noPercent unsigned positive
  | @replaced before covered rest result found matched length later ih =>
    rw [List.forall_mem_append] at ascii
    rw [← List.append_assoc] at noPercent unsigned positive ⊢
    obtain ⟨base, exponent, rfl, plain, plain', apart, ends, written⟩ :=
      power_of_matched matched length ascii.1
    have end' : (base ++ '^' :: exponent).getLast? = (left ++ (base ++ '^' :: exponent)).getLast? := by
      rw [List.getLast?_append]
      simp [List.getLast?_cons]
    have folded := ih end' ascii.2 noPercent unsigned positive
    refine folded.trans ?_
    rw [written]
    by_cases finite : (literalPower base exponent).isFinite = true
    · rw [if_pos finite, List.append_assoc]
      have noPercent' : '%' ∉ left ∧ '%' ∉ rest := by
        simp only [List.mem_append, not_or] at noPercent
        exact ⟨noPercent.1.1, noPercent.2⟩
      refine sameAnswer_power plain plain' finite ?_ (place ▸ apart) ?_ noPercent'.1
        (noPercent_result later noPercent'.2) (touches_result later ends)
      · exact positive.literal (isNumeral_of_isPlain plain) (isNumeral_of_isPlain plain') ⟨left, rest, by simp⟩
      · rintro front rfl
        rw [← Bool.not_eq_true]
        intro opens
        exact unsigned ⟨front, base, exponent ++ rest, by simp, opens, plain⟩
    · rw [if_neg finite, List.append_assoc]

/-- What the names of constants give way to: a plain literal in parentheses. -/
def Encloses (pattern : Pattern) : Prop :=
  ∀ before text found, pattern before text = some found →
    ∃ x, IsPlain (literalText x) ∧ found.replacement = enclosed x

private theorem plain_constant {x : Float} (constant : x ∈ [pi, euler]) : IsPlain (literalText x) := by
  have known : ∀ x ∈ [pi, euler], x.isFinite = true ∧ isNegative x = false := by decide
  exact (isPlain_literalText (known x constant).1 (known x constant).2).1

private theorem encloses_of_names (names : ∀ before text found, pattern before text = some found →
    NameMatch text found) : Encloses pattern := by
  intro before text found matched
  obtain ⟨-, -, x, constant, same⟩ := names _ _ _ matched
  exact ⟨x, plain_constant constant, same⟩

theorem encloses_piPattern : Encloses piPattern :=
  encloses_of_names fun _ _ _ => nameMatch_of_piPattern

theorem encloses_eulerPattern : Encloses eulerPattern :=
  encloses_of_names fun _ _ _ => nameMatch_of_eulerPattern

theorem not_mem_enclosed {x : Float} {char : Char} (plain : IsPlain (literalText x))
    (other : isNumeralChar char = false) (noParenthesis : char ≠ '(' ∧ char ≠ ')') : char ∉ enclosed x := by
  intro member
  simp only [enclosed, List.cons_append, List.mem_cons, List.mem_append, List.not_mem_nil,
    or_false] at member
  rcases member with same | inside | same
  · exact noParenthesis.1 same
  · rw [(isLiteral_of_isPlain plain).chars char inside] at other
    cases other
  · exact noParenthesis.2 same

private theorem kept_run {run others : List Char} (encloses : Encloses pattern)
    (parts : Substituted pattern before text (run ++ others)) (noOpening : '(' ∉ run) :
    ∃ rest, text = run ++ rest := by
  induction run generalizing before text with
  | nil => exact ⟨text, rfl⟩
  | cons char run ih =>
    rw [List.mem_cons, not_or] at noOpening
    generalize same : char :: run ++ others = result at parts
    cases parts with
    | nil => cases same
    | kept unmatched later =>
      obtain ⟨rfl, rfl⟩ := List.cons.inj same
      obtain ⟨rest, rfl⟩ := ih later noOpening.2
      exact ⟨rest, rfl⟩
    | replaced matched length later =>
      obtain ⟨x, -, replacement⟩ := encloses _ _ _ matched
      rw [replacement] at same
      exact absurd (List.cons.inj same).1.symm noOpening.1

/-- A minus before a power was there before the constants were, and so was what makes it a
sign. -/
theorem kept_minus {front base others : List Char} (encloses : Encloses pattern)
    (parts : Substituted pattern before text result) (plain : IsPlain base)
    (same : result = front ++ '-' :: (base ++ '^' :: others)) :
    ∃ front' others', text = front' ++ '-' :: (base ++ '^' :: others') ∧
      (opensOperand front.getLast? = true → front'.getLast? = front.getLast?) := by
  induction parts generalizing front with
  | nil => simp at same
  | @kept before char rest result unmatched later ih =>
    cases front with
    | nil =>
      obtain ⟨rfl, rfl⟩ := List.cons.inj same
      have noOpening : '(' ∉ base ++ ['^'] := by
        simp only [List.mem_append, List.mem_singleton, not_or]
        exact ⟨fun member => absurd ((isLiteral_of_isPlain plain).chars _ member) (by decide), by decide⟩
      rw [show base ++ '^' :: others = (base ++ ['^']) ++ others by simp] at later
      obtain ⟨tail, rfl⟩ := kept_run encloses later noOpening
      exact ⟨[], tail, by simp, fun _ => rfl⟩
    | cons first front =>
      obtain ⟨rfl, tails⟩ := List.cons.inj same
      obtain ⟨front', others', rfl, opens⟩ := ih tails
      refine ⟨char :: front', others', rfl, fun opens' => ?_⟩
      cases front with
      | nil =>
        have empty : front'.getLast? = none := opens rfl
        simp [List.getLast?_eq_none_iff.mp empty]
      | cons second front =>
        rw [List.getLast?_cons_cons] at opens' ⊢
        rw [List.getLast?_cons, opens opens', List.getLast?_cons]
        rfl
  | @replaced before covered rest result found matched length later ih =>
    obtain ⟨x, literal, replacement⟩ := encloses _ _ _ matched
    have noMinus : '-' ∉ found.replacement :=
      replacement ▸ not_mem_enclosed literal (by decide) (by decide)
    obtain ⟨between, rfl, tails⟩ := exists_between noMinus same
    obtain ⟨front', others', rfl, opens⟩ := ih tails
    refine ⟨covered ++ front', others', by simp, fun opens' => ?_⟩
    rw [List.getLast?_append] at opens' ⊢
    rw [List.getLast?_append]
    cases known : between.getLast? with
    | none =>
      have final : found.replacement.getLast? = some ')' := by
        rw [replacement, enclosed, List.getLast?_concat]
      rw [known, Option.none_or, final] at opens'
      cases opens'
    | some last =>
      rw [known] at opens opens'
      rw [opens opens']
      rfl

private theorem unsigned_substituted (encloses : Encloses pattern)
    (parts : Substituted pattern before text result) (unsigned : ¬ SignedBase text) :
    ¬ SignedBase result := by
  rintro ⟨front, base, others, same, opens, plain⟩
  obtain ⟨front', others', rfl, kept⟩ := kept_minus encloses parts plain same
  exact unsigned ⟨front', base, others', rfl, by rw [kept opens]; exact opens, plain⟩

theorem mem_substituted {char : Char} (encloses : Encloses pattern)
    (parts : Substituted pattern before text result) (member : char ∈ result) :
    char ∈ text ∨ isNumeralChar char = true ∨ char = '(' ∨ char = ')' := by
  induction parts with
  | nil => exact .inl member
  | kept unmatched later ih =>
    rcases List.mem_cons.mp member with rfl | inside
    · exact .inl (List.mem_cons_self ..)
    · exact (ih inside).imp_left (List.mem_cons_of_mem _)
  | replaced matched length later ih =>
    rcases List.mem_append.mp member with inside | inside
    · obtain ⟨x, plain, same⟩ := encloses _ _ _ matched
      by_contra other
      simp only [not_or, Bool.not_eq_true] at other
      exact not_mem_enclosed plain other.2.1 other.2.2 (same ▸ inside)
    · exact (ih inside).imp_left (List.mem_append_right _)

/-- A text of which constants are made has no new signs before its powers, and no
character but those of literals in parentheses is new. -/
theorem expandConstants_spec (text : List Char) :
    (¬ SignedBase text → ¬ SignedBase (expandConstants text)) ∧
      ∀ char ∈ expandConstants text,
        char ∈ text ∨ isNumeralChar char = true ∨ char = '(' ∨ char = ')' := by
  have first : Substituted piPattern none text (substitute piPattern text) :=
    substituted (fun _ _ _ matched => (nameMatch_of_piPattern matched).within) none text
  have second : Substituted eulerPattern none (substitute piPattern text) (expandConstants text) :=
    substituted (fun _ _ _ matched => (nameMatch_of_eulerPattern matched).within) none _
  constructor
  · exact fun unsigned => unsigned_substituted encloses_eulerPattern second
      (unsigned_substituted encloses_piPattern first unsigned)
  · intro char member
    rcases mem_substituted encloses_eulerPattern second member with earlier | new
    · exact mem_substituted encloses_piPattern first earlier
    · exact .inr new

theorem fillGaps_percent (noPercent : '%' ∉ text) : fillGaps percentGap text = text := by
  have chain : text.IsChain fun left right => percentGap left right = [] := by
    refine (List.pairwise_of_forall_mem_list fun left member right _ => ?_).isChain
    rw [percentGap, if_neg]
    rintro ⟨rfl, -⟩
    exact noPercent member
  have whole := @fillGaps_append percentGap text [] chain (by simp)
  have nothing : fillGaps percentGap [] = [] := rfl
  rwa [nothing, List.append_nil] at whole

private theorem plainSign_of_lt {char : Char} (ascii : char.toNat < 128) : plainSign char = char := by
  apply SettledText.plainSign_of_ne
  constructor <;> rintro rfl <;> exact absurd ascii (by decide)

/-- Computing powers of literals in a text changes no value, if no base stands directly
behind a sign. -/
theorem compute_unfolded (ascii : ∀ char ∈ text, char.toNat < 128) (noPercent : '%' ∉ text)
    (unsigned : ¬ SignedBase (text.filter fun char => !Text.isBlank char))
    (positive : PositivePowers (· <:+: prepare text)) :
    SameAnswer (compute mode text) (execute mode (complete (prepare text))) := by
  have plain : text.map plainSign = text :=
    (List.map_congr_left fun char member => plainSign_of_lt (ascii char member)).trans (List.map_id' text)
  have visible : ∀ char ∈ text.filter (fun char => !Text.isBlank char), char ∈ text :=
    fun char member => List.mem_of_mem_filter member
  obtain ⟨signs, chars⟩ := expandConstants_spec (text.filter fun char => !Text.isBlank char)
  have noPercent' : '%' ∉ expandConstants (text.filter fun char => !Text.isBlank char) := by
    intro member
    rcases chars _ member with old | new
    · exact noPercent (visible _ old)
    · exact absurd new (by decide)
  have prepared : prepare text = expandConstants (text.filter fun char => !Text.isBlank char) := by
    rw [prepare, plain, fillGaps_percent noPercent']
  have ascii' : ∀ char ∈ prepare text, char.toNat < 128 := by
    rw [prepared]
    intro char member
    rcases chars char member with old | numeral | rfl | rfl
    · exact ascii char (visible char old)
    · have low : ∀ char ∈ numeralChars, char.toNat < 128 := by decide
      exact low char (mem_of_isNumeralChar numeral)
    · decide
    · decide
  have parts : Substituted powerPattern none (prepare text) (foldPowers (prepare text)) :=
    substituted powerPattern_within none _
  have same := @sameAnswer_of_substituted none [] _ _ mode parts rfl ascii' (prepared ▸ noPercent')
    (prepared ▸ signs unsigned) positive
  exact same.symm

private theorem eq_two {base exponent : List Char} (numeral : IsNumeral base) (numeral' : IsNumeral exponent)
    (inside : base ++ '^' :: exponent <:+: "2^2^2(3)".toList) : base = ['2'] ∧ exponent = ['2'] := by
  have parts : ∀ tail ∈ "2^2^2(3)".toList.tails, ∀ part ∈ tail.inits, ∀ place ∈ List.range part.length,
      part[place]? = some '^' → (∀ char ∈ part.take place, Text.isDigit char = true ∨ char = '.') →
      (∀ char ∈ part.drop (place + 1), Text.isDigit char = true ∨ char = '.') → part.take place ≠ [] →
      part.drop (place + 1) ≠ [] → part.take place = ['2'] ∧ part.drop (place + 1) = ['2'] := by
    decide +kernel
  obtain ⟨tail, begins, ends⟩ := List.infix_iff_prefix_suffix.mp inside
  have found := parts tail ((List.mem_tails _ _).mpr ends) _ ((List.mem_inits _ _).mpr begins) base.length
    (by simp)
  have behind : (base ++ '^' :: exponent).drop (base.length + 1) = exponent := by
    rw [← List.drop_drop, List.drop_left, List.drop_one, List.tail_cons]
  rw [List.take_left, behind] at found
  exact found (by simp) numeral.chars numeral'.chars numeral.ne_nil numeral'.ne_nil

theorem compute_unfolded_chain :
    SameAnswer (compute .degrees "2^2^2(3)".toList)
        (execute .degrees (complete (prepare "2^2^2(3)".toList))) ∧
      (compute .degrees "2^2^2(3)".toList).toOption = some 48.0 := by
  have unsigned : ¬ SignedBase ("2^2^2(3)".toList.filter fun char => !Text.isBlank char) := by
    rintro ⟨front, base, rest, same, -, -⟩
    have minus : '-' ∈ "2^2^2(3)".toList.filter fun char => !Text.isBlank char := by
      rw [same]
      simp
    exact absurd minus (by decide)
  have prepared : prepare "2^2^2(3)".toList = "2^2^2(3)".toList := by decide +kernel
  have positive : PositivePowers (· <:+: prepare "2^2^2(3)".toList) := by
    rw [prepared]
    intro base exponent numeral numeral' inside
    obtain ⟨rfl, rfl⟩ := eq_two numeral numeral' inside
    have two : numeralValue ['2'] = 2.0 := by decide +kernel
    exact positivePower_of_own (by simp [two])
  exact ⟨compute_unfolded (by decide) (by decide) unsigned positive, by decide +kernel⟩

end Reckon.Proofs.FoldedText
