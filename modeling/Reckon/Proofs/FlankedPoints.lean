import Reckon.Proofs.BarePoint
import Reckon.Proofs.PreparedParts

/-! Where each point of a text has a digit on both sides, no product is left unwritten. What
comes before the reader keeps the points between digits, and only a bare point lets two
operands stand side by side. -/

namespace Reckon.Proofs.FlankedPoints
open Entry BarePoint FilledGaps LexedNeighbours LiteralReading SentenceShape SettledText

def Flanked (text : List Char) : Prop :=
  ∀ front back, text = front ++ '.' :: back →
    front.getLast?.any Char.isDigit = true ∧ back.head?.any Char.isDigit = true

instance (text : List Char) : Decidable (Flanked text) :=
  decidable_of_iff (∀ place ∈ List.range text.length, text[place]? = some '.' →
      (text.take place).getLast?.any Char.isDigit = true ∧
        (text.drop (place + 1)).head?.any Char.isDigit = true) <| by
    constructor
    · rintro places front back rfl
      have here := places front.length (by simp) (by simp)
      rwa [List.take_left, ← List.drop_drop, List.drop_left, List.drop_one, List.tail_cons] at here
    · intro flanked place inside point
      apply flanked
      obtain ⟨bound, same⟩ := List.getElem?_eq_some_iff.mp point
      rw [← same, List.getElem_cons_drop, List.take_append_drop]

def Sided (left right : Char) : Prop :=
  (left = '.' → Text.isDigit right = true) ∧ (right = '.' → Text.isDigit left = true)

/-- A part of a text that points stand inside of only. -/
structure Closed (text : List Char) : Prop where
  filled : text ≠ []
  sided : text.IsChain Sided
  first : ∀ char ∈ text.head?, char ≠ '.'
  last : ∀ char ∈ text.getLast?, char ≠ '.'

variable {pattern : Pattern} {before : Option Char} {text result first second covered rest : List Char}
  {found : Match} {char : Char} {items : List Lexeme}

private theorem sided_of_ne {left right : Char} (noPoint : left ≠ '.') (noPoint' : right ≠ '.') : Sided left right :=
  ⟨fun point => absurd point noPoint, fun point => absurd point noPoint'⟩

private theorem ne_point_of_digit (digit : Text.isDigit char = true) : char ≠ '.' := by
  rintro rfl
  exact absurd digit (by decide)

private theorem isChain_of_flanked (front : List Char) (flanked : Flanked (front ++ text)) : text.IsChain Sided := by
  induction text generalizing front with
  | nil => exact .nil
  | cons char rest ih =>
    have shifted : front ++ char :: rest = (front ++ [char]) ++ rest := by simp
    refine List.isChain_cons.mpr ⟨fun next head => ⟨?_, ?_⟩, ih (front ++ [char]) (shifted ▸ flanked)⟩
    · rintro rfl
      have ascii := (flanked front rest rfl).2
      rw [Option.mem_def.mp head] at ascii
      exact Text.isDigit_of_ascii ascii
    · rintro rfl
      obtain ⟨others, rfl⟩ := List.head?_eq_some_iff.mp head
      have ascii := (flanked (front ++ [char]) others shifted).1
      rw [List.getLast?_concat] at ascii
      exact Text.isDigit_of_ascii ascii

private theorem closed_of_not_mem (filled : text ≠ []) (noPoint : '.' ∉ text) : Closed text where
  filled := filled
  sided := (List.pairwise_of_forall_mem_list fun _ left _ right =>
    sided_of_ne (fun same => noPoint (same ▸ left)) fun same => noPoint (same ▸ right)).isChain
  first := fun _ head same => noPoint (same ▸ List.mem_of_mem_head? head)
  last := fun _ final same => noPoint (same ▸ List.mem_of_getLast? final)

theorem Closed.append (closed : Closed first) (closed' : Closed second) : Closed (first ++ second) where
  filled := by simp [closed.filled]
  sided := List.isChain_append.mpr ⟨closed.sided, closed'.sided,
    fun _ final _ head => sided_of_ne (closed.last _ final) (closed'.first _ head)⟩
  first := by
    rw [List.head?_append_of_ne_nil _ closed.filled]
    exact closed.first
  last := by
    rw [List.getLast?_append_of_ne_nil _ closed'.filled]
    exact closed'.last

/-- A point in a literal stands between its digits. -/
theorem closed_of_isNumeral (numeral : IsNumeral text) : Closed text := by
  have ends := numeral.getLast?
  have begins := numeral.head? []
  rw [List.append_nil] at begins
  refine ⟨numeral.ne_nil, ?_, fun char head => ne_point_of_digit (begins char head), ?_⟩
  · obtain ⟨whole, fraction, rfl, filled, digits⟩ := numeral
    rw [List.forall_mem_append] at digits
    have chain {part : List Char} (digits : ∀ char ∈ part, Text.isDigit char = true) : part.IsChain Sided :=
      (List.pairwise_of_forall_mem_list fun _ left _ right =>
        sided_of_ne (ne_point_of_digit (digits _ left)) (ne_point_of_digit (digits _ right))).isChain
    rw [List.isChain_append]
    cases fraction with
    | nil => exact ⟨chain digits.1, .nil, nofun⟩
    | cons digit others =>
      refine ⟨chain digits.1, ?_, ?_⟩
      · exact .cons_cons ⟨fun _ => digits.2 digit (by simp), fun point =>
          absurd point (ne_point_of_digit (digits.2 digit (by simp)))⟩ (chain digits.2)
      · rintro last final _ ⟨⟩
        have digit' := digits.1 last (List.mem_of_getLast? final)
        exact ⟨fun point => absurd point (ne_point_of_digit digit'), fun _ => digit'⟩
  · obtain ⟨digit, final, inside⟩ := ends
    rw [final]
    rintro _ ⟨⟩
    exact ne_point_of_digit inside

private theorem closed_literalText (x : Float) : Closed (literalText x) := by
  rcases literalText_cases x with name | ⟨whole, fraction, written, spells⟩
  · have names : ∀ name ∈ specialNames, name ≠ [] ∧ '.' ∉ name := by decide
    exact closed_of_not_mem (names _ name).1 (names _ name).2
  · have digits : Closed (whole ++ Decimal.fraction fraction) :=
      closed_of_isNumeral (LiteralPower.isNumeral_of_spells spells)
    rw [written, signMark]
    split
    · exact (closed_of_not_mem (by decide) (by decide)).append digits
    · exact digits

structure Replaces (before : Option Char) (rest : List Char) (found : Match) : Prop where
  closed : Closed found.replacement
  left : before ≠ some '.'
  right : rest.head? ≠ some '.'

def Sparing (pattern : Pattern) : Prop :=
  ∀ before covered rest found, (before.toList ++ (covered ++ rest)).IsChain Sided →
    pattern before (covered ++ rest) = some found → covered.length = found.further + 1 →
    Replaces before rest found

private theorem sided_substituted (sparing : Sparing pattern)
    (parts : Substituted pattern before text result) (chain : (before.toList ++ text).IsChain Sided) :
    result.IsChain Sided ∧ ∀ left, before = some left ∨ (left ≠ '.' ∧ text.head? ≠ some '.') →
      ∀ next ∈ result.head?, Sided left next := by
  induction parts with
  | nil => exact ⟨.nil, nofun⟩
  | @kept before char rest result unmatched later ih =>
    have chain' : ((some char).toList ++ rest).IsChain Sided := chain.right_of_append
    obtain ⟨inner, next⟩ := ih chain'
    refine ⟨List.isChain_cons.mpr ⟨next char (.inl rfl), inner⟩, ?_⟩
    rintro left place _ ⟨⟩
    rcases place with rfl | ⟨noPoint, noPoint'⟩
    · exact (List.isChain_cons_cons.mp chain).1
    · exact sided_of_ne noPoint fun same => noPoint' (congrArg some same)
  | @replaced before covered rest result found matched length later ih =>
    obtain ⟨closed, left, right⟩ := sparing _ _ _ _ chain matched length
    have chain' : (covered.getLast?.toList ++ rest).IsChain Sided := by
      obtain ⟨front, last, rfl⟩ : ∃ front last, covered = front ++ [last] :=
        (List.eq_nil_or_concat' covered).resolve_left (List.ne_nil_of_length_eq_add_one length)
      rw [List.append_assoc, ← List.append_assoc] at chain
      rw [List.getLast?_concat]
      exact chain.right_of_append
    obtain ⟨inner, next⟩ := ih chain'
    refine ⟨List.isChain_append.mpr ⟨closed.sided, inner, fun last final => ?_⟩, fun last place head => ?_⟩
    · exact next last (.inr ⟨closed.last last final, right⟩)
    · rw [List.head?_append_of_ne_nil _ closed.filled]
      intro begins
      refine sided_of_ne ?_ (closed.first head begins)
      rintro rfl
      rcases place with same | ⟨noPoint, -⟩
      · exact left same
      · exact noPoint rfl

/-- The names of constants have no points beside them, and neither have the literals they give
way to, which stand in parentheses. -/
theorem replaces_of_name (chain : (before.toList ++ (covered ++ rest)).IsChain Sided)
    (name : NameMatch (covered ++ rest) found) (length : covered.length = found.further + 1) :
    Replaces before rest found := by
  have letters : ∀ char ∈ covered, Text.isDigit char = false := by
    intro char member
    have whole : (covered ++ rest).take (found.further + 1) = covered := by rw [← length, List.take_left]
    exact noDigit_of_name (name.name char (whole.symm ▸ member))
  obtain ⟨x, -, same⟩ := name.constant
  have filled : covered ≠ [] := List.ne_nil_of_length_eq_add_one length
  rw [List.isChain_append, List.isChain_append] at chain
  obtain ⟨-, ⟨-, -, behind⟩, ahead⟩ := chain
  refine ⟨?_, ?_, ?_⟩
  · rw [same, enclosed]
    have opening : Closed ['('] := closed_of_not_mem (by decide) (by decide)
    exact (opening.append (closed_literalText x)).append (closed_of_not_mem (by decide) (by decide))
  · rintro rfl
    have sided := ahead '.' rfl (covered.head filled) (by
      rw [List.head?_append_of_ne_nil _ filled, List.head?_eq_some_head filled]
      rfl)
    have digit := sided.1 rfl
    rw [letters _ (List.head_mem filled)] at digit
    cases digit
  · intro point
    have digit := (behind _ (List.getLast?_eq_some_getLast filled) '.' point).2 rfl
    rw [letters _ (List.getLast_mem filled)] at digit
    cases digit

private theorem replaces_of_power (matched : powerPattern before (covered ++ rest) = some found)
    (length : covered.length = found.further + 1) : Replaces before rest found := by
  obtain ⟨base, exponent, rfl, apart, first, second, ends, rfl⟩ := power_of_covered matched length
  refine ⟨?_, ?_, ?_⟩
  · simp only
    split
    · exact closed_literalText _
    · have sign : Closed ['^'] := closed_of_not_mem (by decide) (by decide)
      exact (closed_of_isNumeral first).append (sign.append (closed_of_isNumeral second))
  · rintro rfl
    exact apart (.inr (by decide))
  · intro point
    rw [point] at ends
    exact absurd ends (by decide)

private theorem replaces_of_percent (chain : (before.toList ++ (covered ++ rest)).IsChain Sided)
    (matched : percentPattern before (covered ++ rest) = some found)
    (length : covered.length = found.further + 1) : Replaces before rest found := by
  have apart : touchesNumeral before = false := by
    obtain ⟨-, -, -, apart, -⟩ := percentPattern_eq_some_iff.mp matched
    exact apart
  obtain ⟨numeral, rfl, -, rfl⟩ := percent_of_covered matched length
  refine ⟨closed_literalText _, ?_, ?_⟩
  · rintro rfl
    exact absurd apart (by decide)
  · intro point
    rw [List.isChain_append, List.isChain_append, List.getLast?_concat] at chain
    exact absurd ((chain.2.1.2.2 '%' rfl '.' point).2 rfl) (by decide)

def Spares (gap : Char → Char → List Char) : Prop :=
  ∀ left right, gap left right = [] ∨
    ∃ char, gap left right = [char] ∧ left ≠ '.' ∧ char ≠ '.' ∧ right ≠ '.'

private theorem sided_fillGaps {gap : Char → Char → List Char} (spares : Spares gap) (chain : text.IsChain Sided) :
    (fillGaps gap text).IsChain Sided := by
  refine fillGaps_isChain chain fun left right sided => ?_
  rcases spares left right with none | ⟨char, written, noPoint, noPoint', noPoint''⟩
  · rw [none]
    exact .cons_cons sided (.singleton _)
  · rw [written]
    exact .cons_cons (sided_of_ne noPoint noPoint') (.cons_cons (sided_of_ne noPoint' noPoint'') (.singleton _))

private theorem spares_gaps : Spares percentGap ∧ Spares productGap ∧ Spares emptyGap := by
  have point : Text.isDigit '.' = false ∧ Text.isLetter '.' = false := by decide
  unfold Spares percentGap productGap emptyGap
  refine ⟨?_, ?_, ?_⟩
  all_goals
    intro left right
    split
    case isFalse => exact .inl rfl
    case isTrue operands =>
      refine .inr ⟨_, rfl, ?_, by decide, ?_⟩ <;> (rintro rfl; simp [point] at operands)

private theorem sided_spelled (flanked : Flanked (text.filter fun char => !Text.isBlank char)) :
    (spelled text).IsChain Sided := by
  rw [spelled_eq, List.isChain_map]
  refine (isChain_of_flanked [] flanked).imp fun left right sided => ⟨fun point => ?_, fun point => ?_⟩
  · have digit := sided.1 ((plainSign_point left).mp point)
    rwa [plainSign_digit digit]
  · have digit := sided.2 ((plainSign_point right).mp point)
    rwa [plainSign_digit digit]

private theorem sided_substitute (within : ∀ before text found, pattern before text = some found →
      found.further < text.length)
    (sparing : Sparing pattern) (chain : text.IsChain Sided) : (substitute pattern text).IsChain Sided :=
  (sided_substituted sparing (substituted within none text) chain).1

/-- On its way to the reader a text keeps its points between digits. -/
theorem sided_normalize (flanked : Flanked (text.filter fun char => !Text.isBlank char)) :
    (normalize text).IsChain Sided := by
  obtain ⟨percentSpares, productSpares, emptySpares⟩ := spares_gaps
  have pis : (substitute piPattern (spelled text)).IsChain Sided :=
    sided_substitute (fun _ _ _ matched => (nameMatch_of_piPattern matched).within)
      (fun _ _ _ _ chain matched => replaces_of_name chain (nameMatch_of_piPattern matched))
      (sided_spelled flanked)
  have constants : (expandConstants (spelled text)).IsChain Sided :=
    sided_substitute (fun _ _ _ matched => (nameMatch_of_eulerPattern matched).within)
      (fun _ _ _ _ chain matched => replaces_of_name chain (nameMatch_of_eulerPattern matched)) pis
  have prepared : (prepare text).IsChain Sided := sided_fillGaps percentSpares constants
  have powers : (foldPowers (prepare text)).IsChain Sided :=
    sided_substitute powerPattern_within (fun _ _ _ _ _ => replaces_of_power) prepared
  have percents : (foldPercents (foldPowers (prepare text))).IsChain Sided :=
    sided_substitute percentPattern_within (fun _ _ _ _ => replaces_of_percent) powers
  exact sided_fillGaps emptySpares (sided_fillGaps productSpares percents)

private theorem isChain_of_apart {ended : Bool} (apart : Apart ended items) :
    items.IsChain fun left right => ¬ (left.ends = true ∧ right.starts = true) := by
  induction items generalizing ended with
  | nil => exact .nil
  | cons item rest ih =>
    refine List.isChain_cons.mpr ⟨fun next head => ?_, ih apart.2⟩
    obtain ⟨others, rfl⟩ := List.head?_eq_some_iff.mp head
    exact apart.2.1

/-- If each point of the entered text has a digit on both sides, then among its lexemes no end of
an operand stands directly before the start of another one. -/
theorem operands_apart {text : List Char} {items : List Lexeme}
    (flanked : Flanked (text.filter fun char => !Text.isBlank char))
    (read : lex (normalize text) = .ok items) :
    items.IsChain fun left right => ¬ (left.ends = true ∧ right.starts = true) := by
  have lexed := lexed_of_lexFrom read
  have fits : Fits false none .nothing := .nothing rfl (by simp)
  have guarded : Guarded (normalize text) := by
    refine (sided_normalize flanked).imp fun left right sided bare => ?_
    rcases bare with ⟨rfl, operand⟩ | ⟨closing, rfl⟩
    · have digit := sided.1 rfl
      rcases operand with rfl | letter
      · exact absurd digit (by decide)
      · rw [Text.isDigit_of_letter letter] at digit
        cases digit
    · have digit := sided.2 rfl
      rcases closing with rfl | rfl <;> exact absurd digit (by decide)
  have clear : Clear none (normalize text) := by
    have joined := normalize_isChain text
    cases known : normalize text with
    | nil => trivial
    | cons char rest =>
      rw [known] at joined guarded
      exact ⟨nofun, (clear_iff_guarded joined).mpr guarded⟩
  exact isChain_of_apart ((apart_iff_clear lexed fits).mpr ⟨fun _ => rfl, clear⟩)

theorem operands_apart_mixed :
    Flanked ("2 .5π(3)5%(1.5)2^2e".toList.filter fun char => !Text.isBlank char) ∧
      ∃ items, lex (normalize "2 .5π(3)5%(1.5)2^2e".toList) = .ok items ∧
        items.flatMap Lexeme.spelling =
          "2.5*(3.141592653589793)*(3)*0.05*(1.5)*4*(2.718281828459045)".toList ∧
        items.IsChain fun left right => ¬ (left.ends = true ∧ right.starts = true) := by
  have flanked : Flanked ("2 .5π(3)5%(1.5)2^2e".toList.filter fun char => !Text.isBlank char) := by
    decide +kernel
  have spelled : (lex (normalize "2 .5π(3)5%(1.5)2^2e".toList)).toOption.map (·.flatMap Lexeme.spelling) =
      some "2.5*(3.141592653589793)*(3)*0.05*(1.5)*4*(2.718281828459045)".toList := by decide +kernel
  cases read : lex (normalize "2 .5π(3)5%(1.5)2^2e".toList) with
  | error cause =>
    rw [read] at spelled
    cases spelled
  | ok items =>
    rw [read] at spelled
    exact ⟨flanked, items, rfl, Option.some.inj spelled, operands_apart flanked read⟩

end Reckon.Proofs.FlankedPoints
