import Reckon.Proofs.LiteralPower

/-! The text of a power. What stands before the power sign is kept, and what stands behind
it is put in order as if it stood alone. -/

namespace Reckon.Proofs.PowerText
open Entry Lexer NumeralText SettledText LiteralPower

variable {base text : List Char}

def Opens (text : List Char) : Prop :=
  ∃ char rest, text = char :: rest ∧ (char = '(' ∨ Text.isLetter char = true)

theorem Opens.substitute {pattern : Pattern} (opens : Opens text)
    (encloses : ∀ before rest found, pattern before rest = some found →
      ∃ x, found.replacement = enclosed x) : Opens (substitute pattern text) := by
  obtain ⟨char, rest, rfl, first⟩ := opens
  cases matched : pattern none (char :: rest) with
  | none => exact ⟨char, _, by rw [Entry.substitute, substituteFrom, matched], first⟩
  | some found =>
    obtain ⟨x, replacement⟩ := encloses _ _ _ matched
    refine ⟨'(', literalText x ++ [')'] ++ substituteFrom pattern (some char) found.further rest, ?_,
      .inl rfl⟩
    simp only [Entry.substitute, substituteFrom, matched, replacement, enclosed, List.cons_append]

private theorem piPattern_encloses (before : Option Char) (rest : List Char) (found : Match)
    (matched : piPattern before rest = some found) : ∃ x, found.replacement = enclosed x := by
  unfold piPattern at matched
  split at matched
  · split at matched
    · exact ⟨pi, by rw [← Option.some.inj matched]⟩
    · split at matched
      · split at matched
        · exact ⟨pi, by rw [← Option.some.inj matched]⟩
        · cases matched
      · cases matched
  · cases matched

private theorem eulerPattern_encloses (before : Option Char) (rest : List Char) (found : Match)
    (matched : eulerPattern before rest = some found) : ∃ x, found.replacement = enclosed x := by
  unfold eulerPattern at matched
  split at matched
  · split at matched
    · exact ⟨euler, by rw [← Option.some.inj matched]⟩
    · cases matched
  · cases matched

theorem Opens.prepare (opens : Opens text) : Opens (prepare text) := by
  have visible : Opens ((text.map plainSign).filter fun char => !Text.isBlank char) := by
    obtain ⟨char, rest, rfl, first⟩ := opens
    have plain : plainSign char = char ∧ Text.isBlank char = false := by
      rcases first with rfl | letter
      · decide
      · exact ⟨plainSign_letter letter, Text.isBlank_of_letter letter⟩
    refine ⟨char, (rest.map plainSign).filter fun char => !Text.isBlank char, ?_, first⟩
    simp [plain.1, plain.2]
  obtain ⟨char, rest, prepared, first⟩ :=
    (visible.substitute piPattern_encloses).substitute eulerPattern_encloses
  refine ⟨char, rest.head?.elim [] (percentGap char) ++ fillGaps percentGap rest, ?_, first⟩
  rw [Entry.prepare, expandConstants, prepared, fillGaps]

theorem Opens.splitNumeral (opens : Opens text) : (splitNumeral text).1 = [] := by
  obtain ⟨char, rest, rfl, first⟩ := opens
  rw [splitNumeral_nil]
  rcases first with rfl | letter
  · decide
  · exact Text.isDigit_of_letter letter

/-- What stands before the power sign: nothing in it is changed and it holds no power. -/
structure IsFront (front : List Char) : Prop where
  kept : ∀ char ∈ front ++ ['^'], Kept char
  chain : (front ++ ['^']).IsChain Settles
  noPower : '^' ∉ front

private theorem endsFree_power (front : List Char) : EndsFree (front ++ ['^']) := by
  intro last found
  obtain rfl : '^' = last := by simpa using found
  decide

/-- Behind a power sign an operand in parentheses is put in order as if it stood alone. -/
theorem normalize_append {front : List Char} (whole : IsFront front) (opens : Opens text) :
    normalize (front ++ '^' :: text) = front ++ '^' :: normalize text := by
  have parts (rest : List Char) : front ++ '^' :: rest = front ++ ['^'] ++ rest := by simp
  rw [Entry.normalize, parts, prepare_append whole.kept whole.chain (endsFree_power front), ← parts,
    foldPowers_append whole.noPower opens.prepare.splitNumeral, parts,
    complete_append whole.chain (.inr (by simp)), ← parts, Entry.normalize]

theorem prepare_literal {front : List Char} (whole : IsFront front)
    (chars : ∀ char ∈ text, char ∈ numeralChars) (filled : text ≠ []) :
    prepare (front ++ '^' :: text) = front ++ '^' :: text ∧
      complete (front ++ '^' :: text) = front ++ '^' :: text := by
  have parts : front ++ '^' :: text = front ++ ['^'] ++ text := by simp
  have kept : ∀ char ∈ front ++ '^' :: text, Kept char := by
    rw [parts, List.forall_mem_append]
    exact ⟨whole.kept, fun char member => (settled_numerals char (chars char member)).kept⟩
  have chain : (front ++ '^' :: text).IsChain Settles := by
    rw [parts, List.isChain_append]
    refine ⟨whole.chain, chain_numerals chars, fun last found next head => ?_⟩
    obtain rfl : '^' = last := by simpa using found
    exact (settled_numerals next (chars next (List.mem_of_mem_head? head))).exponent
  have free : EndsFree (front ++ '^' :: text) := by
    intro last found
    rw [parts, List.getLast?_append_of_ne_nil _ filled] at found
    exact (settled_numerals last (chars last (List.mem_of_getLast? found))).free
  exact ⟨prepare_eq_self kept chain free, complete_eq_self chain⟩

/-- Behind a power sign a literal reaches the reader as it is, if the power is not computed. -/
theorem normalize_literal {front : List Char} (whole : IsFront front)
    (chars : ∀ char ∈ text, char ∈ numeralChars) (filled : text ≠ [])
    (unfolded : foldPowers (front ++ '^' :: text) = front ++ '^' :: text) :
    normalize (front ++ '^' :: text) = front ++ '^' :: text := by
  obtain ⟨prepared, completed⟩ := prepare_literal whole chars filled
  rw [Entry.normalize, prepared, unfolded, completed]

theorem isFront_glued (chars : ∀ char ∈ base, isNumeralChar char = true) : IsFront ('-' :: base) := by
  have numerals : ∀ char ∈ '-' :: base, char ∈ numeralChars := mem_signedText true chars
  refine ⟨?_, ?_, noPower_numerals numerals⟩
  · rw [List.forall_mem_append, List.forall_mem_singleton]
    exact ⟨fun char member => (settled_numerals char (numerals char member)).kept, by decide⟩
  · rw [List.isChain_append]
    refine ⟨chain_numerals numerals, .singleton _, fun last found next head => ?_⟩
    obtain rfl : '^' = next := by simpa using head
    exact (settled_numerals last (numerals last (List.mem_of_getLast? found))).base

theorem isFront_parted (chars : ∀ char ∈ base, isNumeralChar char = true) (filled : base ≠ []) :
    IsFront ('-' :: '(' :: (base ++ [')'])) := by
  have numerals : ∀ char ∈ base, char ∈ numeralChars :=
    fun char member => mem_of_isNumeralChar (chars char member)
  refine ⟨?_, ?_, ?_⟩
  · simp only [List.cons_append, List.append_assoc, List.forall_mem_cons, List.forall_mem_append]
    exact ⟨by decide, by decide, fun char member => (settled_numerals char (numerals char member)).kept,
      by decide⟩
  · obtain ⟨first, others, rfl⟩ := List.exists_cons_of_ne_nil filled
    have inside : (first :: others ++ [')', '^']).IsChain Settles := by
      rw [List.isChain_append]
      refine ⟨chain_numerals numerals, by decide, fun last found next head => ?_⟩
      obtain rfl : ')' = next := by simpa using head
      exact (settled_numerals last (numerals last (List.mem_of_getLast? found))).closed
    have opened := (settled_numerals first (numerals first (List.mem_cons_self ..))).opened
    simpa using List.IsChain.cons_cons (show Settles '-' '(' by decide) (.cons_cons opened inside)
  · have noPower := noPower_numerals numerals
    simp [noPower]

end Reckon.Proofs.PowerText
