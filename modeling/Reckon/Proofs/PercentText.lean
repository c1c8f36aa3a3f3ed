import Reckon.Proofs.FoldedParts

/-! The text around a percent sign as the reader comes upon it. It is the same whether the sign
stands behind a literal or behind the literal in parentheses. -/

namespace Reckon.Proofs.PercentText
open Entry FilledGaps FoldedText Lexer LiteralPlace LiteralPower NumeralText PowerFolding SettledText

variable {left right middle result numeral text : List Char} {char next : Char}

def Free (text : List Char) : Prop :=
  ∀ last ∈ text.getLast?, Text.isLetter last = false ∧ Text.isDigit last = false ∧ last ≠ '.'

def ahead (left : List Char) : List Char :=
  before (foldPercents (foldPowers (prepareBefore left)))

def afterwards (right : List Char) : List Char :=
  complete (foldPowers (prepareBehind right))

private theorem plainSign_cases (char : Char) :
    plainSign char = char ∨ plainSign char = '*' ∨ plainSign char = '/' := by
  unfold plainSign
  split_ifs <;> simp

private theorem spelled_of_visible (visible : ∀ char ∈ text, Text.isBlank char = false) :
    spelled text = text.map plainSign := by
  apply List.filter_eq_self.mpr
  intro char member
  obtain ⟨old, inside, rfl⟩ := List.mem_map.mp member
  rcases plainSign_cases old with same | same | same
  · rw [same, visible old inside]
    rfl
  · rw [same]
    decide
  · rw [same]
    decide

private theorem free_prepare (visible : ∀ char ∈ left, Text.isBlank char = false) (free : Free left) :
    Free (prepare left) := by
  intro last final
  rw [prepare_eq, getLast?_fillGaps, spelled_of_visible visible] at final
  rcases (ends_expandConstants (left.map plainSign)).2 with same | closed
  · rw [same, List.getLast?_map, Option.mem_def, Option.map_eq_some_iff] at final
    obtain ⟨old, known, rfl⟩ := final
    rcases plainSign_cases old with same | same | same
    · rw [same]
      exact free old known
    · rw [same]
      decide
    · rw [same]
      decide
  · rw [closed] at final
    obtain rfl := Option.some.inj final
    decide

private theorem free_prepareBefore (free : Free (prepare left)) :
    Free (prepareBefore left) ∧ (prepareBefore left).getLast? ≠ some '%' := by
  unfold prepareBefore
  by_cases percent : (prepare left).getLast? = some '%'
  · rw [if_pos percent, Free, List.getLast?_concat]
    refine ⟨?_, by decide⟩
    rintro _ ⟨⟩
    decide
  · rw [if_neg percent, List.append_nil]
    exact ⟨free, percent⟩

private theorem getLast?_foldPowers (free : Free text) : (foldPowers text).getLast? = text.getLast? := by
  apply getLast?_substituted (substituted powerPattern_within none text)
  · intro before covered rest found matched length
    obtain ⟨base, exponent, rfl, power⟩ := power_of_covered matched length
    obtain ⟨digit, final, inside⟩ := power.second.getLast?
    refine ⟨digit, ?_, inside⟩
    rw [List.getLast?_append_cons, List.getLast?_cons, final]
    rfl
  · intro last final
    simp [(free last final).2.1]

theorem getLast?_foldPercents (noPercent : text.getLast? ≠ some '%') :
    (foldPercents text).getLast? = text.getLast? := by
  apply getLast?_substituted (substituted percentPattern_within none text)
  · intro before covered rest found matched length
    obtain ⟨numeral, rfl, -⟩ := percent_of_covered matched length
    exact ⟨'%', by simp, rfl⟩
  · rintro last final rfl
    exact noPercent final

private theorem getLast?_folded (free : Free text) (noPercent : text.getLast? ≠ some '%') :
    (foldPercents (foldPowers text)).getLast? = text.getLast? := by
  have powers := getLast?_foldPowers free
  rw [getLast?_foldPercents (powers ▸ noPercent), powers]

private theorem head?_folded (free : ∀ first ∈ text.head?, Text.isDigit first = false) :
    (foldPercents (foldPowers text)).head? = text.head? := by
  have noDigit : ∀ first ∈ text.head?, ¬ Text.isDigit first = true := by simpa using free
  have powers : (foldPowers text).head? = text.head? :=
    head?_substituted (substituted powerPattern_within none text)
      (fun _ _ _ matched => (literals_of_powerPattern matched).digit) noDigit
  rw [← powers] at noDigit ⊢
  exact head?_substituted (substituted percentPattern_within none _)
    (fun _ _ _ matched => (literals_of_percentPattern matched).digit) noDigit

/-- A part of a text with a percent sign at its end, and what arithmetic on literals makes of it. -/
structure Passes (middle result : List Char) : Prop where
  bare : ∀ char ∈ middle, Bare char
  first : ∃ char, middle.head? = some char ∧ (Text.isDigit char = true ∨ char = '(')
  parts : ∃ front, middle = front ++ ['%'] ∧ '^' ∉ front ∧ '%' ∉ front
  percents : ∀ before rest, touchesNumeral before = false →
    substituteFrom percentPattern before 0 (middle ++ rest) = result ++ foldPercents rest
  inert : fillGaps productGap result = result ∧ fillGaps emptyGap result = result
  begins : ∃ char, result.head? = some char ∧ (char.isDigit = true ∨ char = '(')
  ends : ∃ char, result.getLast? = some char ∧ (char.isDigit = true ∨ char = '%')

private theorem product_ahead (operand : char.isDigit = true ∨ char = '(') {last? : Option Char}
    (free : ∀ last ∈ last?, Text.isDigit last = false) :
    product last? (some char) = if last? = some ')' then ['*'] else [] := by
  rcases operand with digit | rfl
  · exact product_before digit last?
  · cases last? with
    | none => rfl
    | some last => simp [product, bridge, productGap, free last rfl, show Text.isLetter '(' = false by decide,
        show Text.isDigit '(' = false by decide]

private theorem product_afterwards (operand : char.isDigit = true ∨ char = '%') {next? : Option Char}
    (free : ∀ next ∈ next?, next ≠ '(' ∧ Text.isLetter next = false) : product (some char) next? = [] := by
  rcases operand with digit | rfl
  · rw [product_behind digit]
    cases next? with
    | none => rfl
    | some next => simp [free next rfl]
  · have noDigit : Text.isDigit '%' = false := by decide
    cases next? <;> simp [product, bridge, productGap, noDigit]

private theorem head?_prepareBehind (visible : ∀ char ∈ right, Text.isBlank char = false)
    (head : (prepareBehind right).head? = some next) :
    Text.isDigit next = false ∧ next ≠ '(' ∧ Text.isLetter next = false ∧
      (next = '*' ∨ next = '/' ∨ right.head? = some next) := by
  unfold prepareBehind at head
  cases known : (prepare right).head? with
  | none =>
    rw [known, List.head?_eq_none_iff.mp known] at head
    cases head
  | some char =>
    rw [known] at head
    by_cases operand : Text.isDigit char = true ∨ char = '(' ∨ Text.isLetter char = true
    · have gap : bridge percentGap (some '%') (some char) = ['*'] := by simp [bridge, percentGap, operand]
      rw [gap] at head
      obtain rfl := Option.some.inj head
      exact ⟨by decide, by decide, by decide, .inl rfl⟩
    · have gap : bridge percentGap (some '%') (some char) = [] := by simp [bridge, percentGap, operand]
      rw [gap, List.nil_append, known] at head
      obtain rfl := Option.some.inj head
      simp only [not_or, Bool.not_eq_true] at operand
      refine ⟨operand.1, operand.2.1, operand.2.2, ?_⟩
      rw [prepare_eq, head?_fillGaps, spelled_of_visible visible] at known
      rcases (ends_expandConstants (right.map plainSign)).1 with same | opened
      · rw [same, List.head?_map, Option.map_eq_some_iff] at known
        obtain ⟨old, known, rfl⟩ := known
        rcases plainSign_cases old with same | same | same
        · rw [same]
          exact .inr (.inr known)
        · exact .inl same
        · exact .inr (.inl same)
      · rw [opened] at known
        exact absurd (Option.some.inj known).symm operand.2.1

private theorem head?_foldedBehind (visible : ∀ char ∈ right, Text.isBlank char = false) :
    (foldPercents (foldPowers (prepareBehind right))).head? = (prepareBehind right).head? :=
  head?_folded fun _ found => (head?_prepareBehind visible found).1

private theorem touches_of_free (free : Free text) : touchesNumeral text.getLast? = false :=
  touchesNumeral_eq_false.mpr fun char final => (free char final).2

theorem Passes.fillGaps (passes : Passes middle result) : fillGaps percentGap middle = middle := by
  obtain ⟨front, parts, -, noPercent⟩ := passes.parts
  have gap : bridge percentGap front.getLast? (some '%') = [] := by
    have noOperand : Text.isDigit '%' = false ∧ Text.isLetter '%' = false := by decide
    cases front.getLast? <;> simp [bridge, percentGap, noOperand]
  have single : Entry.fillGaps percentGap ['%'] = ['%'] := rfl
  rw [parts, fillGaps_parts, fillGaps_percent noPercent, List.head?_cons, gap, single]
  rfl

/-- No power of literals reaches over the part. -/
theorem Passes.foldPowers (passes : Passes middle result) {first rest : List Char} (free : Free first)
    (infinite : ∀ front suffix base exponent, first = front ++ suffix →
      Spans front.getLast? suffix (middle ++ rest) base exponent → (literalPower base exponent).isFinite = false) :
    foldPowers (first ++ (middle ++ rest)) = foldPowers first ++ (middle ++ Entry.foldPowers rest) := by
  obtain ⟨front, parts, noPower, -⟩ := passes.parts
  rw [foldPowers_parts (touches_of_free free) infinite, parts, List.append_assoc, List.append_assoc]
  exact congrArg _ (folding_percent noPower _)

/-- The part stays an operand, with nothing but products written on its left side. -/
theorem Passes.written (passes : Passes middle result) {first rest : List Char}
    (free : ∀ last ∈ first.getLast?, Text.isDigit last = false)
    (free' : ∀ next ∈ rest.head?, next ≠ '(' ∧ Text.isLetter next = false) :
    written (first ++ (result ++ rest)) = before first ++ (result ++ Entry.written rest) := by
  obtain ⟨char, head, operand⟩ := passes.begins
  obtain ⟨last, final, operand'⟩ := passes.ends
  have filled : result ≠ [] := by
    rintro rfl
    cases head
  have noClosing : result.head? ≠ some ')' := by
    rw [head]
    rintro ⟨⟩
    exact absurd operand (by decide)
  have noOpening : result.getLast? ≠ some '(' := by
    rw [final]
    rintro ⟨⟩
    exact absurd operand' (by decide)
  rw [written_middle filled passes.inert.1 passes.inert.2 noClosing noOpening, head, final,
    product_ahead operand free, product_afterwards operand' free']
  rfl

/-- The texts before and behind the part do not depend on it. -/
theorem normalize_middle (passes : Passes middle result) (visible : ∀ char ∈ left, Text.isBlank char = false)
    (visible' : ∀ char ∈ right, Text.isBlank char = false) (free : Free left)
    (infinite : ∀ front suffix base exponent, prepareBefore left = front ++ suffix →
      Spans front.getLast? suffix (middle ++ prepareBehind right) base exponent →
      (literalPower base exponent).isFinite = false) :
    normalize (left ++ (middle ++ right)) = ahead left ++ (result ++ afterwards right) := by
  obtain ⟨front, parts, -⟩ := passes.parts
  obtain ⟨free, noSign⟩ := free_prepareBefore (free_prepare visible free)
  have prepared := prepare_middle passes.bare passes.first (by rw [parts, List.getLast?_concat])
    passes.fillGaps left right
  have powers := passes.foldPowers free infinite
  have open? : touchesNumeral (foldPowers (prepareBefore left)).getLast? = false := by
    rw [getLast?_foldPowers free]
    exact touches_of_free free
  rw [Entry.normalize, prepared, powers, complete_eq, foldPercents_parts open?, passes.percents _ _ open?,
    passes.written]
  · rfl
  · rw [getLast?_folded free noSign]
    exact fun last final => (free last final).2.1
  · intro next head
    obtain ⟨-, noOpening, noLetter, -⟩ := head?_prepareBehind visible' (head?_foldedBehind visible' ▸ head)
    exact ⟨noOpening, noLetter⟩

private theorem bare_of_isNumeralChar (numeral : isNumeralChar char = true) : Bare char := by
  have all : ∀ char ∈ numeralChars, Kept char ∧ Text.isFoldedLetter char = false := by decide
  obtain ⟨kept, noLetter⟩ := all char (mem_of_isNumeralChar numeral)
  exact ⟨kept, noLetter⟩

theorem passes_literal (plain : IsPlain numeral)
    (hundredth : IsPlain (literalText (numeralValue numeral / 100.0))) :
    Passes (numeral ++ ['%']) (literalText (numeralValue numeral / 100.0)) where
  bare char member := by
    rcases List.mem_append.mp member with inside | final
    · exact bare_of_isNumeralChar ((isLiteral_of_isPlain plain).chars char inside)
    · rw [List.mem_singleton.mp final]
      exact ⟨by decide, by decide⟩
  first := by
    obtain ⟨⟨digit, head, inside⟩, -⟩ := ends_plain plain
    exact ⟨digit, by rw [List.head?_append, head]; rfl, .inl (Text.isDigit_of_ascii inside)⟩
  parts := ⟨numeral, rfl, signs_of_isPlain plain⟩
  percents before rest apart := by
    rw [List.append_assoc]
    exact foldPercents_numeral (isNumeral_of_isPlain plain) apart
  inert := inert_plain hundredth
  begins := by
    obtain ⟨⟨digit, head, inside⟩, -⟩ := ends_plain hundredth
    exact ⟨digit, head, .inl inside⟩
  ends := by
    obtain ⟨-, digit, final, inside⟩ := ends_plain hundredth
    exact ⟨digit, final, .inl inside⟩

theorem passes_group (plain : IsPlain numeral) :
    Passes ('(' :: (numeral ++ [')', '%'])) ('(' :: (numeral ++ [')', '%'])) where
  bare char member := by
    simp only [List.mem_cons, List.mem_append, List.not_mem_nil, or_false] at member
    rcases member with rfl | inside | rfl | rfl
    · exact ⟨by decide, by decide⟩
    · exact bare_of_isNumeralChar ((isLiteral_of_isPlain plain).chars char inside)
    · exact ⟨by decide, by decide⟩
    · exact ⟨by decide, by decide⟩
  first := ⟨'(', rfl, .inr rfl⟩
  parts := by
    obtain ⟨noPower, noPercent⟩ := signs_of_isPlain plain
    exact ⟨'(' :: (numeral ++ [')']), by simp, by simp [noPower], by simp [noPercent]⟩
  percents before rest apart := by
    have noPercent : '%' ∉ '(' :: numeral := by simp [(signs_of_isPlain plain).2]
    have closed := @foldPercents_closed ('(' :: numeral) rest noPercent before
    simpa using closed
  inert := by
    obtain ⟨products, zeros⟩ := inert_plain plain
    obtain ⟨⟨first, head, inside⟩, last, final, inside'⟩ := ends_plain plain
    have whole (gap : Char → Char → List Char) (inert : fillGaps gap numeral = numeral)
        (opens : gap '(' first = []) (closes : gap last ')' = []) (ends : gap ')' '%' = []) :
        fillGaps gap ('(' :: (numeral ++ [')', '%'])) = '(' :: (numeral ++ [')', '%']) := by
      rw [fillGaps_cons, fillGaps_parts, inert, List.head?_append, head, final]
      simp [bridge, fillGaps, opens, closes, ends]
    have noDigit : Text.isDigit '(' = false ∧ Text.isDigit ')' = false := by decide
    have noLetter : Text.isLetter ')' = false ∧ Text.isLetter '%' = false := by decide
    have other : first ≠ ')' ∧ last ≠ ')' ∧ last ≠ '(' := by
      refine ⟨?_, ?_, ?_⟩ <;> rintro rfl
      · exact absurd inside (by decide)
      · exact absurd inside' (by decide)
      · exact absurd inside' (by decide)
    constructor
    · refine whole productGap products ?_ ?_ (by decide)
      · simp [productGap, noDigit]
      · simp [productGap, noLetter, other, noDigit]
    · exact whole emptyGap zeros (by simp [emptyGap, other]) (by simp [emptyGap, other]) (by decide)
  begins := ⟨'(', rfl, .inr rfl⟩
  ends := by
    refine ⟨'%', ?_, .inr rfl⟩
    rw [← List.cons_append, List.getLast?_append_cons]
    rfl

private theorem prepareBehind_percent (right : List Char) : prepareBehind ('%' :: right) = '%' :: prepareBehind right := by
  have noLetter : Cut ['%'].getLast? (spelled right).head? := by
    left
    rintro _ ⟨⟩
    decide
  have spells : spelled ('%' :: right) = ['%'] ++ spelled right := spelled_append ['%'] right
  have alone : expandConstants ['%'] = ['%'] := by decide
  have prepared : prepare ('%' :: right) = '%' :: prepareBehind right := by
    rw [prepare_eq, spells, expandConstants_parts noLetter, alone, List.singleton_append, fillGaps_cons,
      ← head?_fillGaps (expandConstants (spelled right)), ← prepare_eq]
    rfl
  have gap : bridge percentGap (some '%') (some '%') = [] := by decide
  rw [prepareBehind, prepared, List.head?_cons, gap, List.nil_append]

private theorem afterwards_percent (right : List Char) : afterwards ('%' :: right) = '%' :: afterwards right := by
  have powers (text : List Char) : foldPowers ('%' :: text) = '%' :: foldPowers text := by
    have stops := @folding_percent [] text (by simp) none
    rwa [List.nil_append, ← substitute, ← foldPowers_eq] at stops
  have products (next? : Option Char) : bridge productGap (some '%') next? = [] := by
    have noDigit : Text.isDigit '%' = false := by decide
    cases next? <;> simp [bridge, productGap, noDigit]
  have zeros (next? : Option Char) : bridge emptyGap (some '%') next? = [] := by
    cases next? <;> simp [bridge, emptyGap]
  rw [afterwards, prepareBehind_percent, powers, complete_eq, foldPercents, substitute, foldPercents_sign, written, fillGaps_cons,
    products, List.nil_append, fillGaps_cons, zeros]
  rfl

theorem afterwards_percents (count : Nat) (right : List Char) :
    afterwards (List.replicate count '%' ++ right) = List.replicate count '%' ++ afterwards right := by
  induction count with
  | zero => rfl
  | succ count ih => rw [List.replicate_succ, List.cons_append, afterwards_percent, ih, List.cons_append]

theorem head?_afterwards (visible : ∀ char ∈ right, Text.isBlank char = false)
    (head : (afterwards right).head? = some next) :
    Text.isDigit next = false ∧ next ≠ '(' ∧ Text.isLetter next = false ∧
      (next = '*' ∨ next = '/' ∨ right.head? = some next) := by
  rw [afterwards, complete_eq, head?_written, head?_foldedBehind visible] at head
  exact head?_prepareBehind visible head

/-- Nothing that could run on into an operand ends the text before it. Behind a minus the text
is what it would be without the operand. -/
theorem ends_ahead (visible : ∀ char ∈ left, Text.isBlank char = false) (free : Free left) :
    Free (ahead left) ∧ (ahead left).getLast? ≠ some '%' ∧ (ahead left).getLast? ≠ some ')' ∧
      ((ahead left).getLast? = some '-' → ahead left = normalize left) := by
  obtain ⟨free, noSign⟩ := free_prepareBefore (free_prepare visible free)
  have ends := getLast?_folded free noSign
  by_cases closed : (foldPercents (foldPowers (prepareBefore left))).getLast? = some ')'
  · have final : (ahead left).getLast? = some '*' := by
      rw [ahead, before, if_pos closed, List.getLast?_concat]
    rw [Free, final]
    exact ⟨by rintro _ ⟨⟩; decide, by decide, by decide, fun minus => absurd minus (by decide)⟩
  · have whole : ahead left = written (foldPercents (foldPowers (prepareBefore left))) := before_of_ne closed
    have final : (ahead left).getLast? = (prepareBefore left).getLast? := by
      rw [whole, getLast?_written, ends]
    rw [Free, final]
    refine ⟨free, noSign, ends ▸ closed, fun minus => ?_⟩
    have noProduct : (prepare left).getLast? ≠ some '%' := by
      intro percent
      rw [prepareBefore, if_pos percent, List.getLast?_concat] at minus
      cases minus
    rw [whole, prepareBefore, if_neg noProduct, List.append_nil]
    rfl

end Reckon.Proofs.PercentText
