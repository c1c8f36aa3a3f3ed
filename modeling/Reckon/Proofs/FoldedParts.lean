import Reckon.Proofs.PreparedParts

/-! Arithmetic on literals in a text in parts. Where the first part does not end in a literal,
only a power whose base ends it can reach into the part behind it, and a power that keeps its
text does no harm. Over a parenthesis, a letter or an operator but the power sign none reaches. -/

namespace Reckon.Entry
open Proofs.LiteralPower

variable {pattern : Pattern} {before : Option Char} {suffix first front rest others text numeral base exponent
  result : List Char} {found : Match} {char last next : Char}

def folding : Pattern := fun before text =>
  (powerPattern before text).filter fun found => found.replacement != text.take (found.further + 1)

private theorem folding_eq_some_iff :
    folding before text = some found ↔ ∃ base exponent rest, text = base ++ '^' :: (exponent ++ rest) ∧
      PowerMatch before base exponent rest found ∧ found.replacement ≠ base ++ '^' :: exponent := by
  have whole (base exponent rest : List Char) :
      (base ++ '^' :: (exponent ++ rest)).take (base.length + exponent.length + 1) = base ++ '^' :: exponent := by
    rw [Nat.add_assoc, List.take_length_add_append, List.take_succ_cons, List.take_left]
  rw [folding, Option.filter_eq_some_iff, powerPattern_eq_some_iff, bne_iff_ne]
  constructor
  · rintro ⟨⟨base, exponent, rest, rfl, power⟩, changed⟩
    rw [show found.further = base.length + exponent.length by rw [power.found], whole] at changed
    exact ⟨base, exponent, rest, rfl, power, changed⟩
  · rintro ⟨base, exponent, rest, rfl, power, changed⟩
    refine ⟨⟨base, exponent, rest, rfl, power⟩, ?_⟩
    rwa [show found.further = base.length + exponent.length by rw [power.found], whole]

theorem foldPowers_eq (text : List Char) : foldPowers text = substitute folding text := by
  have parts : Substituted powerPattern none text (foldPowers text) := substituted powerPattern_within none text
  rw [substitute]
  generalize foldPowers text = result at parts
  generalize none = before at parts
  induction parts with
  | nil => rfl
  | @kept before char rest result unmatched later ih =>
    have none : folding before (char :: rest) = none := by simp [folding, unmatched]
    simp only [substituteFrom, none, ← ih]
  | @replaced before covered rest result found matched length later ih =>
    by_cases same : found.replacement = covered
    · have none : folding before (covered ++ rest) = none := by
        simp [folding, matched, ← length, same]
      have inside : ∀ char ∈ covered, ∀ text, folding (some char) text = Option.none := by
        obtain ⟨base, exponent, rfl, power⟩ := power_of_covered matched length
        intro char member text
        have kind : Text.isDigit char = true ∨ char = '.' ∨ char = '^' := by
          rcases List.mem_append.mp member with left | right
          · exact (power.first.chars char left).imp_right .inl
          · rcases List.mem_cons.mp right with sign | right
            · exact .inr (.inr sign)
            · exact (power.second.chars char right).imp_right .inl
        simp [folding, powerPattern_inside kind text]
      have filled : covered ≠ [] := by
        rintro rfl
        simp at length
      rw [substituteFrom_inside inside none filled, same, ih]
    · have matched' : folding before (covered ++ rest) = some found := by
        simp [folding, matched, ← length, same]
      rw [substituteFrom_replaced matched' length, ih]

private theorem touches_append {part : List Char} (front : List Char)
    (chars : ∀ char ∈ part, Text.isDigit char = true ∨ char = '.') (filled : part ≠ []) :
    touchesNumeral (front ++ part).getLast? = true := by
  rw [List.getLast?_append_of_ne_nil _ filled, List.getLast?_eq_some_getLast filled]
  rcases chars _ (List.getLast_mem filled) with digit | point
  · simp [touchesNumeral, digit]
  · simp [touchesNumeral, point]

/-- A power whose base ends the text before a place is given its exponent behind the place. -/
structure Spans (before : Option Char) (suffix rest base exponent : List Char) : Prop where
  ends : suffix = base ++ ['^']
  begins : ∃ others, rest = exponent ++ others ∧ touchesNumeral others.head? = false
  apart : ¬ (before = some '^' ∨ touchesNumeral before = true)
  first : IsNumeral base
  second : IsNumeral exponent

private theorem eq_nil_of_open (front : List Char) {part : List Char} (open? : touchesNumeral suffix.getLast? = false)
    (chars : ∀ char ∈ part, Text.isDigit char = true ∨ char = '.') (parts : suffix = front ++ part) :
    part = [] := by
  by_contra filled
  rw [parts, touches_append front chars filled] at open?
  cases open?

/-- Where a text goes on does not change the powers in it, if it breaks off in none. -/
theorem folding_apart (open? : touchesNumeral suffix.getLast? = false) (filled : suffix ≠ [])
    (infinite : ∀ base exponent, Spans before suffix rest base exponent →
      (literalPower base exponent).isFinite = false) :
    folding before (suffix ++ rest) = folding before suffix := by
  ext found
  rw [folding_eq_some_iff, folding_eq_some_iff]
  constructor
  · rintro ⟨base, exponent, others, parts, power, changed⟩
    have inside := power.first.chars
    have inside' := power.second.chars
    rcases List.append_eq_append_iff.mp parts with ⟨between, longer, -⟩ | ⟨between, rfl, tails⟩
    · have chars : ∀ char ∈ suffix, Text.isDigit char = true ∨ char = '.' :=
        fun char member => inside char (longer ▸ List.mem_append_left _ member)
      exact absurd (eq_nil_of_open [] open? chars rfl) filled
    · cases between with
      | nil =>
        exact absurd (eq_nil_of_open [] open? inside (by simp)) power.first.ne_nil
      | cons sign between =>
        rw [List.cons_append, List.cons.injEq] at tails
        obtain ⟨rfl, tails⟩ := tails
        rcases List.append_eq_append_iff.mp tails with ⟨more, rfl, continued⟩ | ⟨more, rfl, rfl⟩
        · cases more with
          | nil =>
            exact absurd (eq_nil_of_open (base ++ ['^']) open? inside' (by simp)) power.second.ne_nil
          | cons char more =>
            have head : touchesNumeral (char :: more).head? = false := by
              have ends := power.ends
              rwa [continued, List.cons_append, List.head?_cons] at ends
            exact ⟨base, exponent, char :: more, by simp,
              ⟨power.apart, power.first, power.second, head, power.found⟩, changed⟩
        · have chars : ∀ char ∈ between, Text.isDigit char = true ∨ char = '.' :=
            fun char member => inside' char (List.mem_append_left _ member)
          obtain rfl := eq_nil_of_open (base ++ ['^']) open? chars (by simp)
          have spans : Spans before (base ++ ['^']) (more ++ others) base more :=
            ⟨rfl, ⟨others, rfl, power.ends⟩, power.apart, power.first, power.second⟩
          rw [power.found, List.nil_append, infinite base more spans] at changed
          exact absurd rfl changed
  · rintro ⟨base, exponent, others, rfl, power, changed⟩
    have some : others ≠ [] := by
      rintro rfl
      exact power.second.ne_nil (eq_nil_of_open (base ++ ['^']) open? power.second.chars (by simp))
    refine ⟨base, exponent, others ++ rest, by simp, ⟨power.apart, power.first, power.second, ?_, power.found⟩,
      changed⟩
    rw [List.head?_append_of_ne_nil _ some]
    exact power.ends

private theorem folding_within (before : Option Char) (text : List Char) (found : Match)
    (matched : folding before text = some found) : found.further < text.length :=
  powerPattern_within before text found (Option.filter_eq_some_iff.mp matched).1

theorem foldPowers_parts (open? : touchesNumeral first.getLast? = false)
    (infinite : ∀ front suffix base exponent, first = front ++ suffix →
      Spans front.getLast? suffix rest base exponent → (literalPower base exponent).isFinite = false) :
    foldPowers (first ++ rest) = foldPowers first ++ substituteFrom folding first.getLast? 0 rest := by
  rw [foldPowers_eq, foldPowers_eq, substitute, substituteFrom_parts folding_within, Option.or_none]
  · rfl
  · rintro front suffix rfl filled
    rw [List.getLast?_append_of_ne_nil _ filled] at open?
    rw [Option.or_none]
    exact folding_apart open? filled fun base exponent spans => infinite front suffix base exponent rfl spans

private theorem numeral_stops {sign stop : Char} (whole : IsNumeral numeral)
    (foreign : ¬ (Text.isDigit stop = true ∨ stop = '.')) (other : stop ≠ sign) (none : sign ∉ first) :
    numeral ++ sign :: others ≠ first ++ stop :: rest := by
  intro same
  obtain ⟨between, rfl, tails⟩ := exists_between (whole.not_mem foreign) same
  cases between with
  | nil => exact other (List.cons.inj tails).1.symm
  | cons char between =>
    obtain ⟨rfl, -⟩ := List.cons.inj tails
    exact none (by simp)

private theorem substituteFrom_stop {stop : Char} (before : Option Char)
    (never : ∀ before part, part <:+ first → pattern before (part ++ stop :: rest) = none) :
    substituteFrom pattern before 0 (first ++ stop :: rest) =
      first ++ stop :: substituteFrom pattern (some stop) 0 rest := by
  have whole := @substituteFrom_append pattern (first ++ [stop]) rest before fun before suffix filled inside => by
    obtain ⟨part, rfl, shorter⟩ := (List.suffix_concat_iff.mp inside).resolve_left filled
    rw [List.append_assoc]
    exact never before part shorter
  rw [List.getLast?_concat] at whole
  simpa using whole

/-- Over a percent sign no power reaches, and behind it powers are computed as at the start. -/
theorem folding_percent (noPower : '^' ∉ first) (before : Option Char) :
    substituteFrom folding before 0 (first ++ '%' :: rest) = first ++ '%' :: foldPowers rest := by
  have beside : folding (some '%') rest = folding none rest := by
    have apart : touchesNumeral (some '%') = touchesNumeral none := by decide
    simp [folding, powerPattern, apart]
  rw [substituteFrom_stop, substituteFrom_beside beside, foldPowers_eq, substitute]
  intro before part inside
  rw [Option.eq_none_iff_forall_ne_some]
  intro found matched
  obtain ⟨base, exponent, others, parts, power, -⟩ := folding_eq_some_iff.mp matched
  exact numeral_stops power.first (by decide) (by decide) (fun member => noPower (inside.subset member))
    parts.symm

private theorem percent_apart (open? : touchesNumeral suffix.getLast? = false) (filled : suffix ≠ []) :
    percentPattern before (suffix ++ rest) = percentPattern before suffix := by
  ext found
  rw [percentPattern_eq_some_iff, percentPattern_eq_some_iff]
  constructor
  · rintro ⟨numeral, others, parts, apart, whole, rfl⟩
    rcases List.append_eq_append_iff.mp parts with ⟨between, longer, -⟩ | ⟨between, rfl, tails⟩
    · have chars : ∀ char ∈ suffix, Text.isDigit char = true ∨ char = '.' :=
        fun char member => whole.chars char (longer ▸ List.mem_append_left _ member)
      exact absurd (eq_nil_of_open [] open? chars rfl) filled
    · cases between with
      | nil => exact absurd (eq_nil_of_open [] open? whole.chars (by simp)) whole.ne_nil
      | cons sign between =>
        rw [List.cons_append, List.cons.injEq] at tails
        obtain ⟨rfl, -⟩ := tails
        exact ⟨numeral, between, rfl, apart, whole, rfl⟩
  · rintro ⟨numeral, others, rfl, apart, whole, rfl⟩
    exact ⟨numeral, others ++ rest, by simp, apart, whole, rfl⟩

theorem foldPercents_parts (open? : touchesNumeral first.getLast? = false) :
    foldPercents (first ++ rest) = foldPercents first ++ substituteFrom percentPattern first.getLast? 0 rest := by
  rw [foldPercents, substitute, substituteFrom_parts percentPattern_within, Option.or_none]
  · rfl
  · rintro front suffix rfl filled
    rw [List.getLast?_append_of_ne_nil _ filled] at open?
    exact percent_apart open? filled

private theorem percent_beside (rest : List Char) :
    substituteFrom percentPattern (some '%') 0 rest = foldPercents rest := by
  have apart : touchesNumeral (some '%') = touchesNumeral none := by decide
  apply substituteFrom_beside
  simp [percentPattern, apart]

theorem foldPercents_numeral (whole : IsNumeral numeral) (apart : touchesNumeral before = false) :
    substituteFrom percentPattern before 0 (numeral ++ '%' :: rest) =
      literalText (numeralValue numeral / 100.0) ++ foldPercents rest := by
  have matched : percentPattern before ((numeral ++ ['%']) ++ rest) =
      some ⟨numeral.length, literalText (numeralValue numeral / 100.0)⟩ :=
    percentPattern_eq_some_iff.mpr ⟨numeral, rest, by simp, apart, whole, rfl⟩
  have replaced := substituteFrom_replaced matched (by simp)
  rw [List.getLast?_concat, percent_beside] at replaced
  simpa using replaced

theorem foldPercents_sign (before : Option Char) (rest : List Char) :
    substituteFrom percentPattern before 0 ('%' :: rest) = '%' :: foldPercents rest := by
  have sign : percentPattern before ('%' :: rest) = none := percentPattern_eq_none (by decide)
  simp only [substituteFrom, sign, percent_beside]

theorem foldPercents_closed (noPercent : '%' ∉ first) (before : Option Char) :
    substituteFrom percentPattern before 0 (first ++ ')' :: '%' :: rest) =
      first ++ ')' :: '%' :: foldPercents rest := by
  rw [substituteFrom_stop, foldPercents_sign]
  intro before part inside
  rw [Option.eq_none_iff_forall_ne_some]
  intro found matched
  obtain ⟨numeral, others, parts, -, whole, -⟩ := percentPattern_eq_some_iff.mp matched
  exact numeral_stops whole (by decide) (by decide) (fun member => noPercent (inside.subset member))
    parts.symm

/-- A character that belongs neither to literals nor to the arithmetic on them. -/
structure Foreign (char : Char) : Prop where
  noNumeral : ¬ (Text.isDigit char = true ∨ char = '.')
  noSign : char ≠ '^' ∧ char ≠ '%'

/-- No match reaches over the character, and behind it matches are those at the start of a text. -/
structure Halts (pattern : Pattern) (char : Char) : Prop where
  within : ∀ before text found, pattern before text = some found → found.further < text.length
  ahead : ∀ before front rest, pattern before (front ++ char :: rest) = pattern before front
  behind : ∀ rest, pattern (some char) rest = pattern none rest

private theorem substitute_halted (halts : Halts pattern char) (front rest : List Char) :
    substitute pattern (front ++ char :: rest) =
      substitute pattern front ++ char :: substitute pattern rest := by
  have here (before : Option Char) : pattern before (char :: rest) = none := by
    rw [← List.nil_append (char :: rest), halts.ahead, Option.eq_none_iff_forall_ne_some]
    intro found matched
    exact absurd (halts.within _ _ _ matched) (Nat.not_lt_zero _)
  unfold substitute
  rw [substituteFrom_parts halts.within]
  · simp only [substituteFrom, here, substituteFrom_beside (halts.behind rest)]
  · rintro before suffix rfl -
    exact halts.ahead _ _ _

theorem Foreign.touches (foreign : Foreign char) : touchesNumeral (some char) = false := by
  rw [← Bool.not_eq_true]
  intro touches
  exact foreign.noNumeral (by simpa [touchesNumeral] using touches)

theorem foreign_of_letter (letter : Text.isLetter char = true) : Foreign char := by
  have other {sign : Char} (noLetter : Text.isLetter sign = false) : char ≠ sign := by
    rintro rfl
    rw [letter] at noLetter
    cases noLetter
  have noPoint : char ≠ '.' := other (by decide)
  exact ⟨by simp [Text.isDigit_of_letter letter, noPoint], other (by decide), other (by decide)⟩

theorem foreign_parenthesis : Foreign '(' ∧ Foreign ')' :=
  ⟨⟨by decide, by decide⟩, ⟨by decide, by decide⟩⟩

private theorem halts_powerPattern (foreign : Foreign char) : Halts powerPattern char where
  within := powerPattern_within
  ahead before front rest := by
    ext found
    rw [powerPattern_eq_some_iff, powerPattern_eq_some_iff]
    constructor
    · rintro ⟨base, exponent, others, parts, power⟩
      have outside : char ∉ base ++ '^' :: exponent := by
        simp [power.first.not_mem foreign.noNumeral, power.second.not_mem foreign.noNumeral, foreign.noSign.1]
      have whole : (base ++ '^' :: exponent) ++ others = front ++ char :: rest := by simp [parts]
      obtain ⟨between, rfl, rfl⟩ := exists_between outside whole
      refine ⟨base, exponent, between, by simp, power.apart, power.first, power.second, ?_, power.found⟩
      cases between with
      | nil => rfl
      | cons next between => exact power.ends
    · rintro ⟨base, exponent, others, rfl, power⟩
      refine ⟨base, exponent, others ++ char :: rest, by simp, power.apart, power.first, power.second, ?_,
        power.found⟩
      cases others with
      | nil => exact foreign.touches
      | cons next others => exact power.ends
  behind rest := by
    have free : ¬ (some char = some '^' ∨ touchesNumeral (some char) = true) := by
      simp [foreign.touches, foreign.noSign.1]
    have free' : ¬ (none = some '^' ∨ touchesNumeral none = true) := by decide
    simp only [powerPattern, if_neg free, if_neg free']

private theorem halts_percentPattern (foreign : Foreign char) : Halts percentPattern char where
  within := percentPattern_within
  ahead before front rest := by
    ext found
    rw [percentPattern_eq_some_iff, percentPattern_eq_some_iff]
    constructor
    · rintro ⟨numeral, others, parts, apart, whole, same⟩
      have outside : char ∉ numeral ++ ['%'] := by
        simp [whole.not_mem foreign.noNumeral, foreign.noSign.2]
      have parts' : (numeral ++ ['%']) ++ others = front ++ char :: rest := by simp [parts]
      obtain ⟨between, rfl, -⟩ := exists_between outside parts'
      exact ⟨numeral, between, by simp, apart, whole, same⟩
    · rintro ⟨numeral, others, rfl, apart, whole, same⟩
      exact ⟨numeral, others ++ char :: rest, by simp, apart, whole, same⟩
  behind rest := by
    have beside : touchesNumeral (some char) = touchesNumeral none := foreign.touches
    simp only [percentPattern, beside]

def computed (text : List Char) : List Char :=
  foldPercents (foldPowers text)

theorem computed_foreign (foreign : Foreign char) (front rest : List Char) :
    computed (front ++ char :: rest) = computed front ++ char :: computed rest := by
  have powers := substitute_halted (halts_powerPattern foreign) front rest
  have percents := substitute_halted (halts_percentPattern foreign) (foldPowers front) (foldPowers rest)
  rw [computed, foldPowers, powers]
  exact percents

theorem computed_parts (foreign : Foreign char) (meets : first.getLast? = some char ∨ rest.head? = some char) :
    computed (first ++ rest) = computed first ++ computed rest := by
  have nothing : computed [] = [] := rfl
  rcases meets with final | head
  · obtain ⟨front, rfl⟩ := List.getLast?_eq_some_iff.mp final
    have alone := computed_foreign foreign front []
    rw [List.append_assoc, List.singleton_append, computed_foreign foreign, alone, nothing]
    simp
  · obtain ⟨others, rfl⟩ := List.head?_eq_some_iff.mp head
    have alone := computed_foreign foreign [] others
    rw [nothing, List.nil_append, List.nil_append] at alone
    rw [computed_foreign foreign, alone]

/-- What belongs to no arithmetic on literals stays at the end of a text, and at the beginning. -/
theorem computed_end (foreign : Foreign last) (final : first.getLast? = some last) :
    (computed first).getLast? = some last := by
  obtain ⟨front, rfl⟩ := List.getLast?_eq_some_iff.mp final
  rw [computed_foreign foreign]
  exact List.getLast?_concat

theorem computed_start (foreign : Foreign next) (head : rest.head? = some next) :
    (computed rest).head? = some next := by
  obtain ⟨others, rfl⟩ := List.head?_eq_some_iff.mp head
  exact congrArg List.head? (computed_foreign foreign [] others)

end Reckon.Entry
