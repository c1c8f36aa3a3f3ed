import Reckon.Proofs.Matches
import Reckon.Proofs.NumeralText

/-! Texts in small letters. Every pass over a text takes the letters of the English alphabet for
the same in either case, so that it does not matter whether they are lowered before it or
behind it. -/

namespace Reckon.Text

def capitals : List Char :=
  ['A', 'B', 'C', 'D', 'E', 'F', 'G', 'H', 'I', 'J', 'K', 'L', 'M', 'N', 'O', 'P', 'Q', 'R', 'S',
    'T', 'U', 'V', 'W', 'X', 'Y', 'Z']

theorem toLower_cases (char : Char) : char.toLower = char ∨ char ∈ capitals := by
  unfold Char.toLower
  split
  case isFalse => exact .inl rfl
  case isTrue capital =>
    right
    have bounds : 65 ≤ char.toNat ∧ char.toNat ≤ 90 := capital
    obtain ⟨least, most⟩ := bounds
    have same := Char.ofNat_toNat char
    generalize char.toNat = code at least most same
    subst same
    interval_cases code <;> decide

/-- What is the same for the capitals and their small letters is the same for all characters. -/
theorem apply_toLower {α : Type} (p : Char → α) (known : ∀ char ∈ capitals, p char.toLower = p char)
    (char : Char) : p char.toLower = p char := by
  rcases toLower_cases char with same | capital
  · rw [same]
  · exact known char capital

theorem toLower_toLower (char : Char) : char.toLower.toLower = char.toLower :=
  apply_toLower Char.toLower (by decide) char

theorem isBlank_toLower (char : Char) : isBlank char.toLower = isBlank char :=
  apply_toLower isBlank (by decide) char

theorem isLetter_toLower (char : Char) : isLetter char.toLower = isLetter char :=
  apply_toLower isLetter (by decide) char

private theorem isFoldedLetter_toLower (char : Char) : isFoldedLetter char.toLower = isFoldedLetter char :=
  apply_toLower isFoldedLetter (by decide) char

private theorem isFoldedI_toLower (char : Char) : isFoldedI char.toLower = isFoldedI char :=
  apply_toLower isFoldedI (by decide) char

private theorem isGreekPi_toLower (char : Char) : isGreekPi char.toLower = isGreekPi char :=
  apply_toLower isGreekPi (by decide) char

private theorem isDigit_toLower (char : Char) : isDigit char.toLower = isDigit char :=
  apply_toLower isDigit (by decide +kernel) char

theorem letter_of_capital {char : Char} (capital : char ∈ capitals) :
    isLetter char = true ∧ isLetter char.toLower = true := by
  have all : ∀ char ∈ capitals, isLetter char = true ∧ isLetter char.toLower = true := by decide
  exact all char capital

/-- A character that is no letter is the small form of no other. -/
theorem toLower_eq_iff {char symbol : Char} (noLetter : isLetter symbol = false) :
    char.toLower = symbol ↔ char = symbol := by
  rcases toLower_cases char with same | capital
  · rw [same]
  · obtain ⟨letter, small⟩ := letter_of_capital capital
    constructor <;> rintro rfl
    · rw [small] at noLetter
      cases noLetter
    · rw [letter] at noLetter
      cases noLetter

theorem toLower_of_noLetter {char : Char} (noLetter : isLetter char = false) : char.toLower = char :=
  (toLower_eq_iff noLetter).mpr rfl

end Reckon.Text

namespace Reckon.Entry
open Text

variable {pattern : Pattern} {gap : Char → Char → List Char} {before : Option Char}
  {front rest text : List Char}

def lowered (text : List Char) : List Char :=
  text.map Char.toLower

private theorem lowered_eq_self (plain : ∀ char ∈ text, isLetter char = false) : lowered text = text := by
  rw [lowered, List.map_congr_left fun char member => toLower_of_noLetter (plain char member),
    List.map_id']

private theorem head?_lowered (text : List Char) : (lowered text).head? = text.head?.map Char.toLower :=
  List.head?_map ..

/-- A part without letters can be told before the text is lowered. -/
theorem lowered_eq_append (plain : ∀ char ∈ front, isLetter char = false) :
    lowered text = front ++ rest ↔ ∃ others, text = front ++ others ∧ lowered others = rest := by
  constructor
  · intro parts
    obtain ⟨first, others, rfl, small, later⟩ := List.map_eq_append_iff.mp parts
    have same : first = front := by
      subst small
      refine (List.map_id' first).symm.trans (List.map_congr_left fun char member => ?_)
      exact (toLower_eq_iff (plain _ (List.mem_map_of_mem member))).mp rfl
    exact ⟨others, by rw [same], later⟩
  · rintro ⟨others, rfl, rfl⟩
    rw [lowered, List.map_append]
    exact congrArg (· ++ _) (lowered_eq_self plain)

structure CaseBlind (pattern : Pattern) : Prop where
  alike : ∀ before text, pattern (before.map Char.toLower) (lowered text) = pattern before text
  small : ∀ before text found, pattern before text = some found →
    lowered found.replacement = found.replacement

private theorem substituteFrom_lowered (blind : CaseBlind pattern) (before : Option Char) (covered : Nat)
    (text : List Char) :
    substituteFrom pattern (before.map Char.toLower) covered (lowered text) =
      lowered (substituteFrom pattern before covered text) := by
  induction text generalizing before covered with
  | nil => cases covered <;> rfl
  | cons char rest ih =>
    cases covered with
    | succ covered => exact ih (some char) covered
    | zero =>
      have same := blind.alike before (char :: rest)
      rw [lowered, List.map_cons] at same ⊢
      rw [substituteFrom, substituteFrom, same]
      cases matched : pattern before (char :: rest) with
      | none => exact congrArg (char.toLower :: ·) (ih (some char) 0)
      | some found =>
        have later := ih (some char) found.further
        have written := blind.small _ _ _ matched
        dsimp only
        rw [lowered, List.map_append]
        exact congrArg₂ (· ++ ·) written.symm later

private theorem substitute_lowered (blind : CaseBlind pattern) (text : List Char) :
    substitute pattern (lowered text) = lowered (substitute pattern text) :=
  substituteFrom_lowered blind none 0 text

private theorem lowered_append (first second : List Char) :
    lowered (first ++ second) = lowered first ++ lowered second :=
  List.map_append

/-- Even the names of what is no finite number are written in small letters. -/
theorem lowered_literalText (x : Float) : lowered (literalText x) = literalText x := by
  have numerals : ∀ char ∈ Proofs.NumeralText.numeralChars, char.toLower = char := by decide
  have names : ∀ char ∈ ['i', 'n', 'f', 'a'], char.toLower = char := by decide
  have fixed : ∀ char ∈ literalText x, char.toLower = id char := by
    intro char member
    exact ((Proofs.NumeralText.mem_literalText x).2 char member).elim (numerals char) (names char)
  rw [lowered, List.map_congr_left fixed, List.map_id]

private theorem lowered_enclosed (x : Float) : lowered (enclosed x) = enclosed x := by
  have ends : lowered ['('] = ['('] ∧ lowered [')'] = [')'] := by decide
  rw [enclosed, ← List.singleton_append, lowered_append, lowered_append, ends.1, ends.2,
    lowered_literalText]

private theorem standsFree_toLower (beside : Option Char) :
    standsFree (beside.map Char.toLower) = standsFree beside := by
  cases beside <;> simp [standsFree, isFoldedLetter_toLower]

private theorem touchesNumeral_toLower (beside : Option Char) :
    touchesNumeral (beside.map Char.toLower) = touchesNumeral beside := by
  have point (char : Char) : (char.toLower == '.') = (char == '.') :=
    apply_toLower (· == '.') (by decide) char
  cases beside <;> simp [touchesNumeral, isDigit_toLower, point]

private theorem blind_piPattern : CaseBlind piPattern where
  alike before text := by
    match text with
    | [] | [_] => simp [lowered, piPattern, isGreekPi_toLower]
    | char :: second :: after =>
      simp only [lowered, List.map_cons, piPattern, isGreekPi_toLower, toLower_toLower,
        isFoldedI_toLower, standsFree_toLower, List.head?_map]
  small before text found matched := by
    obtain ⟨x, -, written⟩ := (nameMatch_of_piPattern matched).constant
    rw [written, lowered_enclosed]

private theorem blind_eulerPattern : CaseBlind eulerPattern where
  alike before text := by
    match text with
    | [] => rfl
    | char :: after =>
      simp only [lowered, List.map_cons, eulerPattern, toLower_toLower, standsFree_toLower,
        List.head?_map]
  small before text found matched := by
    obtain ⟨x, -, written⟩ := (nameMatch_of_eulerPattern matched).constant
    rw [written, lowered_enclosed]

theorem IsNumeral.noLetter {numeral : List Char} (whole : IsNumeral numeral) :
    ∀ char ∈ numeral, isLetter char = false := by
  intro char member
  rcases whole.chars char member with digit | rfl
  · exact isLetter_of_digit digit
  · decide

private theorem powerMatch_lowered {base exponent rest : List Char} {found : Match} :
    PowerMatch (before.map Char.toLower) base exponent (lowered rest) found ↔
      PowerMatch before base exponent rest found := by
  have sign : before.map Char.toLower = some '^' ↔ before = some '^' := by
    have noLetter : isLetter '^' = false := by decide
    cases before <;> simp [toLower_eq_iff noLetter]
  constructor
  · rintro ⟨apart, first, second, ends, same⟩
    rw [sign, touchesNumeral_toLower] at apart
    rw [head?_lowered, touchesNumeral_toLower] at ends
    exact ⟨apart, first, second, ends, same⟩
  · rintro ⟨apart, first, second, ends, same⟩
    refine ⟨?_, first, second, ?_, same⟩
    · rwa [sign, touchesNumeral_toLower]
    · rwa [head?_lowered, touchesNumeral_toLower]

/-- A power of literals has no letter. -/
theorem noLetter_power {base exponent : List Char} (first : IsNumeral base)
    (second : IsNumeral exponent) : ∀ char ∈ base ++ '^' :: exponent, isLetter char = false := by
  intro char member
  rcases List.mem_append.mp member with inside | behind
  · exact first.noLetter char inside
  · rcases List.mem_cons.mp behind with rfl | inside
    · decide
    · exact second.noLetter char inside

private theorem blind_powerPattern : CaseBlind powerPattern where
  alike before text := by
    have shape (base exponent rest : List Char) :
        base ++ '^' :: (exponent ++ rest) = (base ++ '^' :: exponent) ++ rest := by simp
    ext found
    rw [powerPattern_eq_some_iff, powerPattern_eq_some_iff]
    constructor
    · rintro ⟨base, exponent, rest, parts, power⟩
      rw [shape, lowered_eq_append (noLetter_power power.first power.second)] at parts
      obtain ⟨others, rfl, rfl⟩ := parts
      exact ⟨base, exponent, others, (shape ..).symm, powerMatch_lowered.mp power⟩
    · rintro ⟨base, exponent, rest, rfl, power⟩
      refine ⟨base, exponent, lowered rest, ?_, powerMatch_lowered.mpr power⟩
      rw [shape, shape, lowered_eq_append (noLetter_power power.first power.second)]
      exact ⟨rest, rfl, rfl⟩
  small before text found matched := by
    obtain ⟨base, exponent, rest, -, power⟩ := powerPattern_eq_some_iff.mp matched
    rw [power.found]
    split
    · exact lowered_literalText _
    · exact lowered_eq_self (noLetter_power power.first power.second)

private theorem blind_percentPattern : CaseBlind percentPattern where
  alike before text := by
    have noLetter {numeral : List Char} (whole : IsNumeral numeral) :
        ∀ char ∈ numeral ++ ['%'], isLetter char = false :=
      List.forall_mem_append.mpr ⟨whole.noLetter, by decide⟩
    have shape (numeral rest : List Char) : numeral ++ '%' :: rest = (numeral ++ ['%']) ++ rest := by
      simp
    ext found
    rw [percentPattern_eq_some_iff, percentPattern_eq_some_iff, touchesNumeral_toLower]
    constructor
    · rintro ⟨numeral, rest, parts, apart, whole, same⟩
      rw [shape, lowered_eq_append (noLetter whole)] at parts
      obtain ⟨others, rfl, rfl⟩ := parts
      exact ⟨numeral, others, (shape ..).symm, apart, whole, same⟩
    · rintro ⟨numeral, rest, rfl, apart, whole, same⟩
      refine ⟨numeral, lowered rest, ?_, apart, whole, same⟩
      rw [shape numeral rest, shape numeral (lowered rest), lowered_eq_append (noLetter whole)]
      exact ⟨rest, rfl, rfl⟩
  small before text found matched := by
    obtain ⟨numeral, rest, -, -, -, rfl⟩ := percentPattern_eq_some_iff.mp matched
    exact lowered_literalText _

structure BlindGap (gap : Char → Char → List Char) : Prop where
  alike : ∀ left right, gap left.toLower right.toLower = gap left right
  small : ∀ left right, lowered (gap left right) = gap left right

private theorem fillGaps_lowered (blind : BlindGap gap) (text : List Char) :
    fillGaps gap (lowered text) = lowered (fillGaps gap text) := by
  induction text with
  | nil => rfl
  | cons char rest ih =>
    have between : (lowered rest).head?.elim [] (gap char.toLower) =
        lowered (rest.head?.elim [] (gap char)) := by
      rw [head?_lowered]
      cases rest.head? with
      | none => rfl
      | some next => exact (blind.alike char next).trans (blind.small char next).symm
    have begun : lowered (char :: rest) = char.toLower :: lowered rest := rfl
    rw [begun, fillGaps, between, ih, ← lowered_append]
    rfl

private theorem blind_percentGap : BlindGap percentGap := by
  have percent (char : Char) : char.toLower = '%' ↔ char = '%' := toLower_eq_iff (by decide)
  have opening (char : Char) : char.toLower = '(' ↔ char = '(' := toLower_eq_iff (by decide)
  constructor
  · intro left right
    simp only [percentGap, percent, opening, isDigit_toLower, isLetter_toLower]
  · intro left right
    unfold percentGap
    split <;> rfl

private theorem blind_productGap : BlindGap productGap := by
  have opening (char : Char) : char.toLower = '(' ↔ char = '(' := toLower_eq_iff (by decide)
  have closing (char : Char) : char.toLower = ')' ↔ char = ')' := toLower_eq_iff (by decide)
  constructor
  · intro left right
    simp only [productGap, opening, closing, isDigit_toLower, isLetter_toLower]
  · intro left right
    unfold productGap
    split <;> rfl

private theorem blind_emptyGap : BlindGap emptyGap := by
  have opening (char : Char) : char.toLower = '(' ↔ char = '(' := toLower_eq_iff (by decide)
  have closing (char : Char) : char.toLower = ')' ↔ char = ')' := toLower_eq_iff (by decide)
  constructor
  · intro left right
    simp only [emptyGap, opening, closing]
  · intro left right
    unfold emptyGap
    split <;> rfl

private theorem plainSign_toLower (char : Char) : plainSign char.toLower = (plainSign char).toLower := by
  have times : char.toLower = '×' ↔ char = '×' := toLower_eq_iff (by decide)
  have divide : char.toLower = '÷' ↔ char = '÷' := toLower_eq_iff (by decide)
  simp only [plainSign, times, divide]
  split_ifs <;> rfl

private theorem prepare_lowered (text : List Char) : prepare (lowered text) = lowered (prepare text) := by
  have visible : ((lowered text).map plainSign).filter (fun char => !isBlank char) =
      lowered ((text.map plainSign).filter fun char => !isBlank char) := by
    simp only [lowered, List.map_map, List.filter_map, Function.comp_def, plainSign_toLower,
      isBlank_toLower]
  rw [prepare, visible, expandConstants, substitute_lowered blind_piPattern,
    substitute_lowered blind_eulerPattern, fillGaps_lowered blind_percentGap]
  rfl

/-- What a text is normalized to, in small letters, comes of the text in small letters. -/
theorem normalize_lowered (text : List Char) : normalize (lowered text) = lowered (normalize text) := by
  rw [normalize, prepare_lowered, foldPowers, substitute_lowered blind_powerPattern, complete,
    foldPercents, substitute_lowered blind_percentPattern, fillGaps_lowered blind_productGap,
    fillGaps_lowered blind_emptyGap]
  rfl

end Reckon.Entry
