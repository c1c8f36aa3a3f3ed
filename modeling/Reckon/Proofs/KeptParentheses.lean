import Reckon.Evaluation
import Reckon.Proofs.LexedNeighbours
import Reckon.Proofs.Matches
import Reckon.Proofs.NumeralText
import Reckon.Proofs.ReachedValue
import Reckon.Proofs.ReadText

/-! Parentheses on their way from the text to the machine. Each pass takes and writes them
in pairs, the reader makes one lexeme of each, and matched lexemes can be put in order. -/

namespace Reckon.Proofs.KeptParentheses
open Entry Lexer NumeralText ReadText SentenceShape LexedNeighbours ReachedValue Polish

variable {pattern : Pattern} {before : Option Char} {text result covered rest : List Char}
  {found : Match} {char : Char}

private theorem openAfter_cons (depth : Nat) (char : Char) (rest : List Char) :
    openAfter depth (char :: rest) = (openAfter depth [char]).bind (openAfter · rest) :=
  openAfter_append depth [char] rest

private theorem openAfter_plain (plain : char ≠ '(' ∧ char ≠ ')') (depth : Nat) (rest : List Char) :
    openAfter depth (char :: rest) = openAfter depth rest := by
  have level : Level [char] := level_of_plain (by simpa using plain)
  rw [openAfter_cons, level]
  rfl

def Levels (pattern : Pattern) : Prop :=
  ∀ before covered rest found, pattern before (covered ++ rest) = some found →
    covered.length = found.further + 1 → Level covered ∧ Level found.replacement

private theorem openAfter_substituted (levels : Levels pattern) (parts : Substituted pattern before text result)
    (depth : Nat) : openAfter depth result = openAfter depth text := by
  induction parts generalizing depth with
  | nil => rfl
  | @kept _ char rest result _ _ ih =>
    rw [openAfter_cons, openAfter_cons depth char rest]
    simp only [ih]
  | replaced matched length later ih =>
    obtain ⟨level, level'⟩ := levels _ _ _ _ matched length
    rw [openAfter_append, openAfter_append, level, level']
    exact ih depth

private theorem openAfter_fillGaps {gap : Char → Char → List Char} (level : ∀ left right, Level (gap left right))
    (depth : Nat) (text : List Char) : openAfter depth (fillGaps gap text) = openAfter depth text := by
  induction text generalizing depth with
  | nil => rfl
  | cons char rest ih =>
    rw [fillGaps, openAfter_cons, openAfter_cons depth char rest]
    congr 1
    funext depth
    rw [openAfter_append]
    cases rest.head? with
    | none => exact ih depth
    | some next =>
      rw [Option.elim_some, level char next]
      exact ih depth

private theorem level_of_digits (digits : ∀ char ∈ text, Text.isDigit char = true ∨ char = '.') : Level text := by
  refine level_of_plain fun char member => ?_
  constructor
  all_goals
    rintro rfl
    exact absurd (digits _ member) (by decide)

private theorem level_literalText (x : Float) : Level (literalText x) := by
  refine level_of_plain fun char member => ?_
  have chars := (mem_literalText x).2 char member
  constructor
  all_goals
    rintro rfl
    exact absurd chars (by decide)

private theorem levels_powerPattern : Levels powerPattern := by
  intro before covered rest found matched length
  obtain ⟨base, exponent, rfl, -, first, second, -, rfl⟩ := power_of_covered matched length
  have level : Level (base ++ '^' :: exponent) := by
    have sign : Level ['^'] := level_of_plain (by decide)
    simpa using ((level_of_digits first.chars).append sign).append (level_of_digits second.chars)
  refine ⟨level, ?_⟩
  simp only
  split
  · exact level_literalText _
  · exact level

private theorem levels_percentPattern : Levels percentPattern := by
  intro before covered rest found matched length
  obtain ⟨numeral, rfl, whole, rfl⟩ := percent_of_covered matched length
  have sign : Level ['%'] := level_of_plain (by decide)
  exact ⟨(level_of_digits whole.chars).append sign, level_literalText _⟩

private theorem levels_of_names (names : ∀ before text found, pattern before text = some found →
    NameMatch text found) : Levels pattern := by
  intro before covered rest found matched length
  obtain ⟨-, name, x, -, constant⟩ := names _ _ _ matched
  rw [← length, List.take_left] at name
  refine ⟨level_of_plain fun char member => ?_, constant ▸ (level_literalText x).group⟩
  have letter := name char member
  constructor
  all_goals
    rintro rfl
    exact absurd letter (by decide)

private theorem openAfter_substitute (levels : Levels pattern)
    (within : ∀ before text found, pattern before text = some found → found.further < text.length)
    (depth : Nat) (text : List Char) : openAfter depth (substitute pattern text) = openAfter depth text :=
  openAfter_substituted levels (substituted within none text) depth

private theorem openAfter_expandConstants (depth : Nat) (text : List Char) :
    openAfter depth (expandConstants text) = openAfter depth text := by
  have pi : Levels piPattern := levels_of_names fun _ _ _ => nameMatch_of_piPattern
  have euler : Levels eulerPattern := levels_of_names fun _ _ _ => nameMatch_of_eulerPattern
  rw [expandConstants,
    openAfter_substitute euler fun _ _ _ matched => (nameMatch_of_eulerPattern matched).within,
    openAfter_substitute pi fun _ _ _ matched => (nameMatch_of_piPattern matched).within]

private theorem level_gaps (left right : Char) :
    Level (percentGap left right) ∧ Level (productGap left right) ∧ Level (emptyGap left right) := by
  unfold percentGap productGap emptyGap
  refine ⟨?_, ?_, ?_⟩
  all_goals
    split <;> exact level_of_plain (by decide)

/-- White space and the keys of a calculator are no parentheses. -/
theorem openAfter_visible (depth : Nat) (text : List Char) :
    openAfter depth ((text.map plainSign).filter fun char => !Text.isBlank char) =
      openAfter depth text := by
  induction text generalizing depth with
  | nil => rfl
  | cons char rest ih =>
    by_cases parenthesis : char = '(' ∨ char = ')'
    · have kept : plainSign char = char ∧ Text.isBlank char = false := by
        rcases parenthesis with rfl | rfl <;> decide
      rw [List.map_cons, kept.1, List.filter_cons_of_pos (by simp [kept.2]), openAfter_cons,
        openAfter_cons depth char rest]
      simp only [ih]
    · have plain : char ≠ '(' ∧ char ≠ ')' := not_or.mp parenthesis
      have plain' : plainSign char ≠ '(' ∧ plainSign char ≠ ')' := by
        unfold plainSign
        split
        · decide
        · split
          · decide
          · exact plain
      rw [List.map_cons, openAfter_plain plain]
      cases blank : Text.isBlank (plainSign char) with
      | false => rw [List.filter_cons_of_pos (by simp [blank]), openAfter_plain plain', ih]
      | true => rw [List.filter_cons_of_neg (by simp [blank]), ih]

private theorem openAfter_normalize (depth : Nat) (text : List Char) :
    openAfter depth (normalize text) = openAfter depth text := by
  have percents := openAfter_substitute levels_percentPattern percentPattern_within
  have powers := openAfter_substitute levels_powerPattern powerPattern_within
  rw [Entry.normalize, complete, openAfter_fillGaps fun left right => (level_gaps left right).2.2,
    openAfter_fillGaps fun left right => (level_gaps left right).2.1, foldPercents, percents,
    foldPowers, powers, prepare, openAfter_fillGaps fun left right => (level_gaps left right).1,
    openAfter_expandConstants, openAfter_visible]

variable {pending : Pending} {items others stack : List Lexeme} {position : Nat}

private theorem nested_settled {next? : Option Char} (settled : Settled pending next? others)
    (depth : Nat) : Nested depth (others ++ items) ↔ Nested depth items := by
  cases settled <;> rfl

private theorem plain_extended {grown : Pending} (extended : Extended before pending char grown) :
    char ≠ '(' ∧ char ≠ ')' := by
  have noNumeral : isNumeralChar '(' = false ∧ isNumeralChar ')' = false := by decide
  have noLetter : Text.isLetter '(' = false ∧ Text.isLetter ')' = false := by decide
  cases extended with
  | first numeral | signed numeral | numeral _ _ numeral =>
    constructor <;> rintro rfl <;> simp [noNumeral] at numeral
  | canceled => decide
  | word _ letter => constructor <;> rintro rfl <;> simp [noLetter] at letter

private theorem nested_started {finished : List Lexeme} {begun : Pending}
    (started : Started before char finished begun)
    (later : ∀ depth, Nested depth items ↔ openAfter depth rest = some 0) (depth : Nat) :
    Nested depth (finished ++ items) ↔ openAfter depth (char :: rest) = some 0 := by
  cases started with
  | sign => rw [openAfter_plain (by decide), List.nil_append, later]
  | word letter =>
    have plain : char ≠ '(' ∧ char ≠ ')' := by
      constructor
      all_goals
        rintro rfl
        exact absurd letter (by decide)
    rw [openAfter_plain plain, List.nil_append, later]
  | symbol known =>
    rcases symbol_cases known with ⟨rfl, rfl⟩ | ⟨rfl, rfl⟩ | ⟨rfl, rfl⟩ | ⟨operator, rfl, rfl⟩
    · exact later (depth + 1)
    · cases depth with
      | zero => simp [Nested, openAfter]
      | succ depth => simp [Nested, openAfter, later]
    · rw [openAfter_plain (by decide)]
      exact later depth
    · rw [openAfter_plain (by cases operator <;> decide)]
      exact later depth

/-- The parentheses of the lexemes match where those of the text do. -/
theorem nested_iff_openAfter (lexed : Lexed before pending text items) (depth : Nat) :
    Nested depth items ↔ openAfter depth text = some 0 := by
  induction lexed generalizing depth with
  | finish settled =>
    have none := @nested_settled _ [] _ _ settled depth
    rw [List.append_nil] at none
    simp [none, Nested, openAfter]
  | extend extended later ih => rw [openAfter_plain (plain_extended (extended_of_extend? extended)), ih]
  | step ends settled started later ih =>
    rw [List.append_assoc, nested_settled settled, nested_started started ih]

theorem nested_of_isBalanced (balanced : isBalanced text = true)
    (read : lex (normalize text) = .ok items) : Nested 0 items := by
  rw [nested_iff_openAfter (lexed_of_lexFrom read), openAfter_normalize]
  exact eq_of_beq balanced

private theorem exists_close? (opens : ∃ waiting ∈ stack, isOpening Lexeme.role waiting = true) :
    ∃ leaving waiting, close? Lexeme.role stack = some (leaving, waiting) := by
  have some : stack.dropWhile (!isOpening Lexeme.role ·) ≠ [] := by
    simpa [List.dropWhile_eq_nil_iff] using opens
  obtain ⟨first, others, parts⟩ := List.exists_cons_of_ne_nil some
  unfold close?
  rw [parts]
  cases others with
  | nil => exact ⟨_, _, rfl⟩
  | cons below rest =>
    simp only
    split <;> exact ⟨_, _, rfl⟩

/-- Matched lexemes can be put in order. -/
theorem arrange_of_nested (nested : Nested (stack.countP (isOpening Lexeme.role)) items) :
    ∃ ordered, arrange Lexeme.role stack items = .ok ordered := by
  induction items generalizing stack with
  | nil =>
    have none := List.countP_eq_zero.mp (nested : stack.countP (isOpening Lexeme.role) = 0)
    exact ⟨stack, arrange_nil_eq_ok_iff.mpr ⟨rfl, by simpa using none⟩⟩
  | cons item rest ih =>
    cases item with
    | number | percent =>
      obtain ⟨ordered, arranged⟩ := ih nested
      exact ⟨_, by rw [arrange, Lexeme.role, arranged]; rfl⟩
    | negate =>
      exact ih (by rwa [List.countP_cons_of_neg (by decide)])
    | function f =>
      exact ih (by rwa [List.countP_cons_of_neg (by simp [isOpening, Lexeme.role])])
    | opening =>
      exact ih (by rwa [List.countP_cons_of_pos rfl])
    | binary operator =>
      have noOpening : ¬ isOpening Lexeme.role (.binary operator) = true := by
        simp [isOpening, Lexeme.role]
      obtain ⟨-, count⟩ := @waiting_spec stack operator.level
      obtain ⟨ordered, arranged⟩ := @ih
        (.binary operator :: stack.dropWhile (actsBefore Lexeme.role operator.level))
        (by rwa [List.countP_cons_of_neg noOpening, ← count])
      exact ⟨_, by simp only [arrange, Lexeme.role, arranged]; rfl⟩
    | closing =>
      obtain ⟨outer, count, inside⟩ := nested
      obtain ⟨leaving, waiting, closes⟩ :=
        exists_close? (List.countP_pos_iff.mp (by rw [count]; exact Nat.succ_pos outer))
      have left := (close?_spec closes).2
      obtain rfl : waiting.countP (isOpening Lexeme.role) = outer := by omega
      obtain ⟨ordered, arranged⟩ := ih inside
      exact ⟨leaving ++ ordered, (arrange_closing_eq_ok_iff rfl).mpr ⟨_, _, _, closes, arranged, rfl⟩⟩

end Reckon.Proofs.KeptParentheses
