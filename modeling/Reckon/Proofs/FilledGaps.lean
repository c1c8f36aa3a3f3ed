import Reckon.Proofs.LiteralPower

/-! The products that were not entered are written before a text is read: behind a percent
sign at first, before arithmetic on literals can hide it, and in all other gaps at the end. -/

namespace Reckon.Proofs.FilledGaps
open Entry SettledText

variable {gap : Char → Char → List Char} {first second : Char → Char → Prop} {pattern : Pattern}
  {text : List Char} {before : Option Char} {found : Match}

theorem fillGaps_isChain (chain : text.IsChain first)
    (kept : ∀ left right, first left right → (left :: (gap left right ++ [right])).IsChain second) :
    (fillGaps gap text).IsChain second := by
  induction text with
  | nil => exact .nil
  | cons char rest ih =>
    cases rest with
    | nil => exact .singleton _
    | cons next rest =>
      rw [List.isChain_cons_cons] at chain
      have later := ih chain.2
      have here := kept char next chain.1
      have shape : fillGaps gap (char :: next :: rest) =
          (char :: gap char next) ++ fillGaps gap (next :: rest) := rfl
      rw [shape, fillGaps, List.isChain_split]
      exact ⟨here, later⟩

def Percent (left right : Char) : Prop :=
  percentGap left right = []

private theorem percent_of_ne {left right : Char} (other : left ≠ '%') : Percent left right := by
  simp [Percent, percentGap, other]

/-- A pattern of literals: it matches from a digit on and brings no percent sign. -/
structure Literals (text : List Char) (found : Match) : Prop where
  digit : ∀ char ∈ text.head?, Text.isDigit char = true
  filled : found.replacement ≠ []
  noPercent : '%' ∉ found.replacement

private theorem literalText_spelled (x : Float) : literalText x ≠ [] ∧ '%' ∉ literalText x := by
  obtain ⟨filled, chars⟩ := NumeralText.mem_literalText x
  exact ⟨filled, fun member => absurd (chars '%' member) (by decide)⟩

theorem literals_of_percentPattern (matched : percentPattern before text = some found) :
    Literals text found := by
  obtain ⟨numeral, rest, rfl, -, whole, rfl⟩ := percentPattern_eq_some_iff.mp matched
  obtain ⟨filled, noPercent⟩ := literalText_spelled (numeralValue numeral / 100.0)
  exact ⟨whole.head? _, filled, noPercent⟩

theorem literals_of_powerPattern (matched : powerPattern before text = some found) :
    Literals text found := by
  obtain ⟨base, exponent, rest, rfl, -, first, second, -, rfl⟩ := powerPattern_eq_some_iff.mp matched
  obtain ⟨filled, noPercent⟩ := literalText_spelled (literalPower base exponent)
  have noPercent' : '%' ∉ base ++ '^' :: exponent := by
    have other : ¬ (Text.isDigit '%' = true ∨ '%' = '.') := by decide
    simp [first.not_mem other, second.not_mem other]
  refine ⟨first.head? _, ?_, ?_⟩
  all_goals
    simp only
    split
  · exact filled
  · simp
  · exact noPercent
  · exact noPercent'

/-- Literals that are computed leave no percent sign before an operand. -/
theorem substituteFrom_percent (literals : ∀ before rest found, pattern before rest = some found →
      Literals rest found) (before : Option Char) (covered : Nat) (chain : text.IsChain Percent) :
    (substituteFrom pattern before covered text).IsChain Percent ∧
      (covered = 0 → ∀ left, (∀ next ∈ text.head?, Percent left next) →
        ∀ next ∈ (substituteFrom pattern before covered text).head?, Percent left next) := by
  induction text generalizing before covered with
  | nil => cases covered <;> exact ⟨.nil, fun _ _ beside => beside⟩
  | cons char rest ih =>
    rw [List.isChain_cons] at chain
    obtain ⟨beside, inner⟩ := chain
    cases covered with
    | succ covered => exact ⟨(ih (some char) covered inner).1, fun none => nomatch none⟩
    | zero =>
      rw [substituteFrom]
      split
      case h_2 =>
        obtain ⟨later, next⟩ := ih (some char) 0 inner
        rw [List.isChain_cons]
        exact ⟨⟨next rfl char beside, later⟩, fun _ left beside => beside⟩
      case h_1 found matched =>
        obtain ⟨digit, filled, noPercent⟩ := literals _ _ _ matched
        have free (left : Char) (member : left ∈ found.replacement) (next : Char) : Percent left next :=
          percent_of_ne fun sign => noPercent (sign ▸ member)
        constructor
        · rw [List.isChain_append]
          refine ⟨?_, (ih (some char) found.further inner).1, fun last final next _ => ?_⟩
          · exact (List.pairwise_of_forall_mem_list fun left member right _ =>
              free left member right).isChain
          · exact free last (List.mem_of_getLast? final) next
        · intro _ left apart next _
          refine percent_of_ne ?_
          rintro rfl
          have gap := apart char rfl
          simp [Percent, percentGap, digit char rfl] at gap

private theorem percent_star (left : Char) : Percent left '*' := by
  have noOperand : Text.isDigit '*' = false ∧ Text.isLetter '*' = false := by decide
  simp [Percent, percentGap, noOperand]

private theorem product_star (char : Char) : productGap char '*' = [] ∧ productGap '*' char = [] := by
  have noOperand : Text.isDigit '*' = false ∧ Text.isLetter '*' = false := by decide
  simp [productGap, noOperand]

private theorem gap_cases (left right : Char) :
    (percentGap left right = [] ∨ percentGap left right = ['*']) ∧
      (productGap left right = [] ∨ productGap left right = ['*']) := by
  unfold percentGap productGap
  constructor <;> split <;> simp

def Joined (left right : Char) : Prop :=
  Percent left right ∧ productGap left right = []

/-- The gaps of a text are filled before it is read. -/
theorem normalize_isChain (text : List Char) : (normalize text).IsChain Joined := by
  have prepared : (prepare text).IsChain Percent := by
    have any : (expandConstants ((text.map plainSign).filter fun char => !Text.isBlank char)).IsChain
        fun _ _ => True := (List.pairwise_of_forall fun _ _ => trivial).isChain
    refine fillGaps_isChain any fun left right _ => ?_
    rcases (gap_cases left right).1 with percent | gap
    · rw [percent]
      simpa [Percent] using percent
    · rw [gap]
      simpa using ⟨percent_star left, percent_of_ne (by decide)⟩
  have powers : (foldPowers (prepare text)).IsChain Percent :=
    (substituteFrom_percent (fun _ _ _ => literals_of_powerPattern) none 0 prepared).1
  have percents : (foldPercents (foldPowers (prepare text))).IsChain Percent :=
    (substituteFrom_percent (fun _ _ _ => literals_of_percentPattern) none 0 powers).1
  have products : (fillGaps productGap (foldPercents (foldPowers (prepare text)))).IsChain Joined := by
    refine fillGaps_isChain percents fun left right percent => ?_
    rcases (gap_cases left right).2 with product | gap
    · rw [product]
      simpa using ⟨percent, product⟩
    · rw [gap]
      simpa using ⟨⟨percent_star left, (product_star left).1⟩,
        ⟨percent_of_ne (by decide), (product_star right).2⟩⟩
  refine fillGaps_isChain products fun left right joined => ?_
  unfold emptyGap
  split
  case isFalse => simpa using joined
  case isTrue empty =>
    obtain ⟨rfl, rfl⟩ := empty
    simp [Joined, Percent]
    decide

end Reckon.Proofs.FilledGaps
