import Reckon.Proofs.NumeralText

/-! Powers that are computed in the text: both literals have to be written in full, and
their power has to be a finite number. -/

namespace Reckon.Proofs.LiteralPower
open Entry Lexer NumeralText SettledText LiteralReading

variable {base text : List Char}

def IsPlain (text : List Char) : Prop :=
  ∃ whole fraction, text = whole ++ Decimal.fraction fraction ∧ Spells whole fraction

theorem isDigit_ascii {char : Char} (numeral : isNumeralChar char = true)
    (digit : Text.isDigit char = true) : char.isDigit = true := by
  simp only [isNumeralChar, Bool.or_eq_true, beq_iff_eq] at numeral
  rcases numeral with ascii | rfl
  · exact ascii
  · exact absurd digit (by decide)

theorem isPlain_of_isNumeral (numeral : IsNumeral base)
    (chars : ∀ char ∈ base, isNumeralChar char = true) : IsPlain base := by
  obtain ⟨whole, fraction, rfl, filled, digits⟩ := numeral
  refine ⟨whole, fraction, rfl, filled, fun char member => isDigit_ascii (chars char ?_) (digits char member)⟩
  rcases List.mem_append.mp member with left | right
  · exact List.mem_append_left _ left
  · apply List.mem_append_right
    cases fraction with
    | nil => cases right
    | cons digit others => exact List.mem_cons_of_mem _ right

theorem isNumeral_of_spells {whole fraction : List Char} (spells : Spells whole fraction) :
    IsNumeral (whole ++ Decimal.fraction fraction) :=
  ⟨whole, fraction, rfl, spells.filled, fun char member => Text.isDigit_of_ascii (spells.digits char member)⟩

theorem isNumeral_of_isPlain (plain : IsPlain base) : IsNumeral base := by
  obtain ⟨whole, fraction, rfl, spells⟩ := plain
  exact isNumeral_of_spells spells

theorem IsPlain.ne_nil (plain : IsPlain text) : text ≠ [] :=
  (isNumeral_of_isPlain plain).ne_nil

theorem IsPlain.splitNumeral {rest : List Char} (plain : IsPlain base)
    (stops : touchesNumeral rest.head? = false) : splitNumeral (base ++ rest) = (base, rest) :=
  (isNumeral_of_isPlain plain).splitNumeral stops

/-- A power whose exponent is no literal stays where it is. -/
theorem foldPowers_append {front rest : List Char} (noPower : '^' ∉ front)
    (noLiteral : (splitNumeral rest).1 = []) :
    foldPowers (front ++ '^' :: rest) = front ++ '^' :: foldPowers rest := by
  have whole : front ++ '^' :: rest = front ++ ['^'] ++ rest := by simp
  have stops : touchesNumeral (some '^') = false := by decide
  have never (before : Option Char) : powerPattern before rest = none := by
    rw [Option.eq_none_iff_forall_ne_some]
    intro found matched
    obtain ⟨base, exponent, others, rfl, power⟩ := powerPattern_eq_some_iff.mp matched
    have split := @IsNumeral.splitNumeral ('^' :: (exponent ++ others)) _ power.first stops
    rw [split] at noLiteral
    exact power.first.ne_nil noLiteral
  unfold foldPowers substitute
  rw [whole, substituteFrom_append]
  · rw [substituteFrom_beside ((never _).trans (never none).symm)]
    simp
  · intro before suffix some inside
    obtain ⟨pre, rfl, shorter⟩ := (List.suffix_concat_iff.mp inside).resolve_left some
    rw [List.append_assoc, List.singleton_append, Option.eq_none_iff_forall_ne_some]
    intro found matched
    obtain ⟨base, exponent, others, parts, power⟩ := powerPattern_eq_some_iff.mp matched
    have noPower' : '^' ∉ pre := fun member => noPower (shorter.subset member)
    obtain ⟨-, rfl⟩ := eq_of_stop noPower' (power.first.not_mem (by decide)) parts
    rw [power.second.splitNumeral power.ends] at noLiteral
    exact power.second.ne_nil noLiteral

theorem isDigit_or_point {char : Char} (numeral : isNumeralChar char = true) :
    Text.isDigit char = true ∨ char = '.' := by
  simp only [isNumeralChar, Bool.or_eq_true, beq_iff_eq] at numeral
  exact numeral.imp_left Text.isDigit_of_ascii

theorem touchesNumeral_of_char {char : Char} (numeral : isNumeralChar char = true) :
    touchesNumeral (some char) = true := by
  simpa [touchesNumeral] using isDigit_or_point numeral

private theorem chain_powerless (noPower : '^' ∉ text) :
    text.IsChain fun left right => Text.isDigit left = true → right ≠ '^' := by
  refine (List.pairwise_of_forall_mem_list fun left _ right member _ => ?_).isChain
  rintro rfl
  exact noPower member

theorem substituteFrom_powerless (noPower : '^' ∉ text) (before : Option Char) :
    substituteFrom powerPattern before 0 text = text :=
  substituteFrom_powers before (chain_powerless noPower)

/-- Behind what is no digit a power stays where it is. -/
theorem foldPowers_apart {front : List Char} (noPower : '^' ∉ front) (noPower' : '^' ∉ text)
    (ends : ∀ last ∈ front.getLast?, Text.isDigit last = false) :
    foldPowers (front ++ '^' :: text) = front ++ '^' :: text := by
  apply substituteFrom_powers
  rw [List.isChain_append]
  refine ⟨chain_powerless noPower, ?_, fun last found next _ digit => ?_⟩
  · cases text with
    | nil => exact .singleton _
    | cons char rest => exact .cons_cons (fun digit => absurd digit (by decide)) (chain_powerless noPower')
  · rw [ends last found] at digit
    cases digit

/-- Both literals are written in full and their power is a finite number: it is computed
before anything is read. -/
def Folded (base text : List Char) : Prop :=
  IsPlain base ∧ IsPlain text ∧ (power (numeralValue base) (numeralValue text)).isFinite = true

private theorem foldPowers_minus (text : List Char) :
    foldPowers ('-' :: text) = '-' :: substituteFrom powerPattern (some '-') 0 text := by
  have noSign : powerPattern none ('-' :: text) = none := powerPattern_eq_none (by decide)
  simp only [foldPowers, substitute, substituteFrom, noSign]

theorem foldPowers_plain (plain : IsPlain base) (plain' : IsPlain text) :
    foldPowers ('-' :: (base ++ '^' :: text)) =
      '-' :: if (power (numeralValue base) (numeralValue text)).isFinite
        then literalText (power (numeralValue base) (numeralValue text)) else base ++ '^' :: text := by
  have matched : powerPattern (some '-') ((base ++ '^' :: text) ++ []) =
      some ⟨base.length + text.length, if (power (numeralValue base) (numeralValue text)).isFinite
        then literalText (power (numeralValue base) (numeralValue text)) else base ++ '^' :: text⟩ :=
    powerPattern_eq_some_iff.mpr ⟨base, text, [], by simp,
      ⟨by decide, isNumeral_of_isPlain plain, isNumeral_of_isPlain plain', rfl, rfl⟩⟩
  have replaced := substituteFrom_replaced matched (by simp only [List.length_append, List.length_cons]; omega)
  rw [List.append_nil] at replaced
  rw [foldPowers_minus, replaced, substituteFrom, List.append_nil]

/-- Only plain literals are taken for a power that is computed. -/
theorem plain_of_powerPattern {before : Option Char} {found : Match}
    (chars : ∀ char ∈ base, isNumeralChar char = true) (chars' : ∀ char ∈ text, isNumeralChar char = true)
    (matched : powerPattern before (base ++ '^' :: text) = some found) : IsPlain base ∧ IsPlain text := by
  have noPower : '^' ∉ base := fun member => absurd (chars _ member) (by decide)
  obtain ⟨base', exponent, others, parts, power⟩ := powerPattern_eq_some_iff.mp matched
  obtain ⟨rfl, rfl⟩ := eq_of_stop noPower (power.first.not_mem (by decide)) parts
  cases others with
  | nil =>
    rw [List.append_nil] at chars' ⊢
    exact ⟨isPlain_of_isNumeral power.first chars, isPlain_of_isNumeral power.second chars'⟩
  | cons char rest =>
    have touches := touchesNumeral_of_char (chars' char (by simp))
    exact absurd (touches.symm.trans power.ends) (by decide)

theorem foldPowers_unfolded (chars : ∀ char ∈ base, isNumeralChar char = true)
    (chars' : ∀ char ∈ text, isNumeralChar char = true) (unfolded : ¬ Folded base text) :
    foldPowers ('-' :: (base ++ '^' :: text)) = '-' :: (base ++ '^' :: text) := by
  by_cases plain : IsPlain base ∧ IsPlain text
  · rw [foldPowers_plain plain.1 plain.2, if_neg fun finite => unfolded ⟨plain.1, plain.2, finite⟩]
  · have noMatch : powerPattern (some '-') (base ++ ['^'] ++ text) = none := by
      rw [List.append_assoc, List.singleton_append, Option.eq_none_iff_forall_ne_some]
      exact fun found matched => plain (plain_of_powerPattern chars chars' matched)
    have inside : ∀ char ∈ base ++ ['^'], ∀ text, powerPattern (some char) text = none := by
      intro char member
      apply powerPattern_inside
      rcases List.mem_append.mp member with left | right
      · exact (isDigit_or_point (chars char left)).imp_right .inl
      · exact .inr (.inr (List.mem_singleton.mp right))
    have noPower : '^' ∉ text := fun member => absurd (chars' _ member) (by decide)
    have kept := substituteFrom_inside inside noMatch (by simp)
    rw [substituteFrom_powerless noPower] at kept
    rw [foldPowers_minus]
    simpa using kept

end Reckon.Proofs.LiteralPower
