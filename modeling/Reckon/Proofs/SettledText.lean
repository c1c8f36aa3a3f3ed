import Reckon.Proofs.Patterns

/-! Texts in which nothing is left to be done. Whether a pass changes a text is decided by
the characters in it and by the pairs that stand side by side. -/

namespace Reckon.Text

theorem isLetter_of_toLower {char : Char} (letter : isLetter char.toLower = true) :
    isLetter char = true := by
  unfold Char.toLower at letter
  split at letter
  case isTrue capital =>
    simp only [isLetter, Char.isAlpha, Char.isUpper, Bool.or_eq_true]
    exact .inl (decide_eq_true capital)
  case isFalse => exact letter

theorem isFoldedLetter_of_isLetter {char : Char} (letter : isLetter char = true) :
    isFoldedLetter char = true := by
  simp [isFoldedLetter, letter]

private theorem letter_range {char : Char} (letter : isLetter char = true) :
    65 ≤ char.toNat ∧ char.toNat ≤ 122 := by
  simp only [isLetter, Char.isAlpha, Char.isUpper, Char.isLower, Bool.or_eq_true, Bool.and_eq_true,
    decide_eq_true_eq, ge_iff_le, UInt32.le_iff_toNat_le] at letter
  have codes : 'A'.val.toNat = 65 ∧ 'Z'.val.toNat = 90 ∧ 'a'.val.toNat = 97 ∧ 'z'.val.toNat = 122 :=
    ⟨rfl, rfl, rfl, rfl⟩
  have same : char.toNat = char.val.toNat := rfl
  omega

theorem isDigit_of_letter {char : Char} (letter : isLetter char = true) : isDigit char = false := by
  have range := letter_range letter
  have starts : ∀ start ∈ digitZeros, start = 48 ∨ 1632 ≤ start := by decide
  have none : digitZeros.find? (fun start => start ≤ char.toNat && char.toNat < start + 10) = none := by
    rw [List.find?_eq_none]
    intro start member
    have far := starts start member
    simp only [Bool.and_eq_true, decide_eq_true_eq]
    omega
  rw [isDigit, digitValue?, none]
  rfl

theorem isLetter_of_digit {char : Char} (digit : isDigit char = true) : isLetter char = false := by
  rw [← Bool.not_eq_true]
  intro letter
  rw [isDigit_of_letter letter] at digit
  cases digit

theorem isBlank_of_letter {char : Char} (letter : isLetter char = true) : isBlank char = false := by
  have range := letter_range letter
  simp only [isBlank, Bool.or_eq_false_iff, Bool.and_eq_false_iff, decide_eq_false_iff_not,
    beq_eq_false_iff_ne]
  omega

/-- No digit of any script is white space. -/
theorem isBlank_of_digit {char : Char} (digit : isDigit char = true) : isBlank char = false := by
  have rows : ∀ start ∈ digitZeros, ∀ value ∈ List.range 10, isBlank (Char.ofNat (start + value)) = false := by
    decide +kernel
  obtain ⟨value, known⟩ := Option.isSome_iff_exists.mp digit
  obtain ⟨start, found, -⟩ := Option.map_eq_some_iff.mp known
  have member := List.mem_of_find?_eq_some found
  have range := List.find?_some found
  simp only [Bool.and_eq_true, decide_eq_true_eq] at range
  have here := rows start member (char.toNat - start) (by simp; omega)
  rwa [Nat.add_sub_cancel' range.1, Char.ofNat_toNat] at here

end Reckon.Text

namespace Reckon.Entry

theorem fillGaps_append {gap : Char → Char → List Char} {first rest : List Char}
    (inside : first.IsChain fun left right => gap left right = [])
    (between : ∀ last ∈ first.getLast?, ∀ next ∈ rest.head?, gap last next = []) :
    fillGaps gap (first ++ rest) = first ++ fillGaps gap rest := by
  induction first with
  | nil => rfl
  | cons char first ih =>
    cases first with
    | nil =>
      cases rest with
      | nil => rfl
      | cons next rest => simp [fillGaps, between char rfl next rfl]
    | cons next first =>
      rw [List.isChain_cons_cons] at inside
      have later := ih inside.2 (by simpa [List.getLast?_cons_cons] using between)
      rw [List.cons_append, fillGaps, later]
      simp [inside.1]

end Reckon.Entry

namespace Reckon.Proofs.SettledText
open Entry

theorem plainSign_of_ne {char : Char} (noKey : char ≠ '×' ∧ char ≠ '÷') : plainSign char = char := by
  rw [plainSign, if_neg noKey.1, if_neg noKey.2]

theorem plainSign_digit {char : Char} (digit : Text.isDigit char = true) : plainSign char = char := by
  apply plainSign_of_ne
  constructor <;> rintro rfl <;> exact absurd digit (by decide)

theorem plainSign_letter {char : Char} (letter : Text.isLetter char = true) : plainSign char = char := by
  apply plainSign_of_ne
  constructor <;> rintro rfl <;> exact absurd letter (by decide)

/-- A character that stands for itself on its way to the reader. -/
structure Kept (char : Char) : Prop where
  plain : plainSign char = char
  visible : Text.isBlank char = false
  noPi : Text.isGreekPi char = false

/-- A pair of neighbours between which nothing is written and of which nothing is
computed. The letters of a function keep each other from being the names of constants. -/
structure Settles (left right : Char) : Prop where
  percent : percentGap left right = []
  product : productGap left right = []
  empty : emptyGap left right = []
  hundredth : Text.isDigit left = true → right ≠ '%'
  pi : left.toLower = 'p' → Text.isFoldedI right = false
  euler : left.toLower = 'e' → Text.isFoldedLetter right = true

instance (left right : Char) : Decidable (Settles left right) :=
  decidable_of_iff (percentGap left right = [] ∧ productGap left right = [] ∧
      emptyGap left right = [] ∧ (Text.isDigit left = true → right ≠ '%') ∧
      (left.toLower = 'p' → Text.isFoldedI right = false) ∧
      (left.toLower = 'e' → Text.isFoldedLetter right = true))
    ⟨fun ⟨percent, product, empty, hundredth, pi, euler⟩ =>
        ⟨percent, product, empty, hundredth, pi, euler⟩,
      fun ⟨percent, product, empty, hundredth, pi, euler⟩ =>
        ⟨percent, product, empty, hundredth, pi, euler⟩⟩

instance (char : Char) : Decidable (Kept char) :=
  decidable_of_iff (plainSign char = char ∧ Text.isBlank char = false ∧ Text.isGreekPi char = false)
    ⟨fun ⟨plain, visible, noPi⟩ => ⟨plain, visible, noPi⟩,
      fun ⟨plain, visible, noPi⟩ => ⟨plain, visible, noPi⟩⟩

variable {first rest : List Char}

theorem piPattern_eq_none {before : Option Char} {char : Char} (noPi : Text.isGreekPi char = false)
    (apart : char.toLower = 'p' → ∀ next ∈ rest.head?, Text.isFoldedI next = false) :
    piPattern before (char :: rest) = none := by
  cases rest with
  | nil => simp [piPattern, noPi]
  | cons next rest =>
    by_cases small : char.toLower = 'p'
    · simp [piPattern, noPi, apart small next rfl]
    · simp [piPattern, noPi, small]

theorem eulerPattern_eq_none {before : Option Char} {char : Char}
    (guarded : char.toLower = 'e' → ∃ next ∈ rest.head?, Text.isFoldedLetter next = true) :
    eulerPattern before (char :: rest) = none := by
  by_cases small : char.toLower = 'e'
  · obtain ⟨next, found, letter⟩ := guarded small
    simp only [Option.mem_def] at found
    simp [eulerPattern, found, standsFree, letter]
  · simp [eulerPattern, small]

/-- No letter ends the text, of which a constant could be made with what follows. -/
def EndsFree (text : List Char) : Prop :=
  ∀ last ∈ text.getLast?, Text.isFoldedLetter last = false ∧ last ≠ '%'

private theorem standsFree_last (free : EndsFree first) :
    standsFree (first.getLast?.or none) = standsFree none := by
  cases known : first.getLast? with
  | none => rfl
  | some last => simp [standsFree, (free last known).1]

/-- What stands at a place of a text: a last character that is no letter, or a pair. -/
private theorem suffix_cases {suffix : List Char} (chain : first.IsChain Settles)
    (free : EndsFree first) (some : suffix ≠ []) (inside : suffix <:+ first) :
    ∃ char tail, suffix = char :: tail ∧ char ∈ first ∧
      ((tail = [] ∧ Text.isFoldedLetter char = false) ∨
        ∃ next more, tail = next :: more ∧ Settles char next) := by
  obtain ⟨char, tail, rfl⟩ := List.exists_cons_of_ne_nil some
  refine ⟨char, tail, rfl, inside.subset (by simp), ?_⟩
  cases tail with
  | nil =>
    obtain ⟨front, rfl⟩ := inside
    exact .inl ⟨rfl, (free char (by simp)).1⟩
  | cons next more => exact .inr ⟨next, more, rfl, (List.isChain_cons_cons.mp (chain.suffix inside)).1⟩

theorem not_small {char small : Char} (letter : Text.isLetter small = true)
    (other : Text.isFoldedLetter char = false) : char.toLower ≠ small := by
  rintro rfl
  rw [Text.isFoldedLetter_of_isLetter (Text.isLetter_of_toLower letter)] at other
  cases other

private theorem expandConstants_append (rest : List Char) (noPi : ∀ char ∈ first, Text.isGreekPi char = false)
    (chain : first.IsChain Settles) (free : EndsFree first) :
    expandConstants (first ++ rest) = first ++ expandConstants rest := by
  have last := standsFree_last free
  have piPass (rest : List Char) :
      substitute piPattern (first ++ rest) = first ++ substitute piPattern rest := by
    unfold substitute
    rw [substituteFrom_append none]
    · congr 1
      apply substituteFrom_beside
      match rest with
      | [] => rfl
      | [_] => rfl
      | _ :: _ :: _ => simp only [piPattern, last]
    · intro before suffix some inside
      obtain ⟨char, tail, rfl, member, ⟨rfl, other⟩ | ⟨next, more, rfl, settles⟩⟩ :=
        suffix_cases chain free some inside
      · exact piPattern_eq_none (noPi char member) fun small => absurd small (not_small (by decide) other)
      · refine piPattern_eq_none (noPi char member) fun small next' found => ?_
        obtain rfl : next = next' := by simpa using found
        exact settles.pi small
  have eulerPass (rest : List Char) :
      substitute eulerPattern (first ++ rest) = first ++ substitute eulerPattern rest := by
    unfold substitute
    rw [substituteFrom_append none]
    · congr 1
      apply substituteFrom_beside
      cases rest with
      | nil => rfl
      | cons => simp only [eulerPattern, last]
    · intro before suffix some inside
      obtain ⟨char, tail, rfl, member, ⟨rfl, other⟩ | ⟨next, more, rfl, settles⟩⟩ :=
        suffix_cases chain free some inside
      · exact eulerPattern_eq_none fun small => absurd small (not_small (by decide) other)
      · exact eulerPattern_eq_none fun small => ⟨next, rfl, settles.euler small⟩
  rw [expandConstants, piPass, eulerPass, expandConstants]

theorem prepare_append (kept : ∀ char ∈ first, Kept char) (chain : first.IsChain Settles)
    (free : EndsFree first) (rest : List Char) : prepare (first ++ rest) = first ++ prepare rest := by
  have same : (first.map plainSign).filter (fun char => !Text.isBlank char) = first := by
    rw [List.map_congr_left fun char inside => (kept char inside).plain, List.map_id'']
    · exact List.filter_eq_self.mpr fun char inside => by simp [(kept char inside).visible]
    · exact fun _ => rfl
  unfold prepare
  rw [List.map_append, List.filter_append, same,
    expandConstants_append _ (fun char inside => (kept char inside).noPi) chain free]
  apply fillGaps_append (chain.imp fun _ _ => Settles.percent)
  intro last found next _
  simp [percentGap, (free last found).2]

/-- Nothing follows the text, or a power sign keeps what follows apart. -/
def Bounded (first rest : List Char) : Prop :=
  rest = [] ∨ first.getLast? = some '^'

/-- A literal ends in a digit, so a pair shows what stops it. A power sign stops it too. -/
private theorem stopped {suffix numeral others : List Char} {stop : Char}
    (chain : first.IsChain Settles) (bounded : Bounded first rest) (some : suffix ≠ [])
    (inside : suffix <:+ first) (whole : IsNumeral numeral)
    (parts : suffix ++ rest = numeral ++ stop :: others) :
    stop = '^' ∨ ∃ digit, Text.isDigit digit = true ∧ Settles digit stop := by
  have noPower : '^' ∉ numeral := whole.not_mem (by decide)
  obtain ⟨digit, final, last⟩ := whole.getLast?
  obtain ⟨front, rfl⟩ := List.getLast?_eq_some_iff.mp final
  have chain := chain.suffix inside
  rcases bounded with rfl | power
  · rw [List.append_nil] at parts
    rw [parts, List.append_assoc] at chain
    exact .inr ⟨digit, last, (List.isChain_append_cons_cons.mp chain).2.1⟩
  · obtain ⟨pre, rfl⟩ : ∃ pre, suffix = pre ++ ['^'] := by
      obtain ⟨pre, final, rfl⟩ := (List.eq_nil_or_concat' suffix).resolve_left some
      obtain ⟨start, rfl⟩ := inside
      obtain rfl : final = '^' := by simpa using power
      exact ⟨pre, rfl⟩
    rw [List.append_assoc pre, List.singleton_append] at parts
    obtain ⟨between, rfl, stops⟩ := exists_between noPower parts.symm
    cases between with
    | nil => exact .inl (List.cons.inj stops).1
    | cons next between =>
      obtain ⟨rfl, -⟩ := List.cons.inj stops
      rw [List.append_assoc, List.append_assoc] at chain
      exact .inr ⟨digit, last, (List.isChain_append_cons_cons.mp chain).2.1⟩

theorem foldPercents_append (chain : first.IsChain Settles) (bounded : Bounded first rest) :
    foldPercents (first ++ rest) = first ++ foldPercents rest := by
  unfold foldPercents substitute
  rw [substituteFrom_append none]
  · congr 1
    apply substituteFrom_beside
    rcases bounded with rfl | power
    · unfold percentPattern splitNumeral
      simp
    · have apart : touchesNumeral ((some '^').or none) = touchesNumeral none := by decide
      simp only [percentPattern, power, apart]
  · intro before suffix some inside
    rw [Option.eq_none_iff_forall_ne_some]
    intro found matched
    obtain ⟨numeral, others, parts, -, whole, -⟩ := percentPattern_eq_some_iff.mp matched
    rcases stopped chain bounded some inside whole parts with power | ⟨digit, last, settles⟩
    · exact absurd power (by decide)
    · exact absurd rfl (settles.hundredth last)

private theorem Bounded.quiet {gap : Char → Char → List Char} (bounded : Bounded first rest)
    (none : ∀ next, gap '^' next = []) :
    ∀ last ∈ first.getLast?, ∀ next ∈ rest.head?, gap last next = [] := by
  intro last found next head
  rcases bounded with rfl | power
  · cases head
  · obtain rfl : '^' = last := by simpa [power] using found
    exact none next

private theorem Bounded.pass (bounded : Bounded first rest) (pass : List Char → List Char)
    (nothing : pass [] = []) : Bounded first (pass rest) := by
  rcases bounded with rfl | power
  · exact .inl nothing
  · exact .inr power

theorem complete_append (chain : first.IsChain Settles) (bounded : Bounded first rest) :
    complete (first ++ rest) = first ++ complete rest := by
  have noDigit : Text.isDigit '^' = false := by decide
  have percents := bounded.pass foldPercents rfl
  have products := percents.pass (fillGaps productGap) rfl
  unfold complete
  rw [foldPercents_append chain bounded,
    fillGaps_append (chain.imp fun _ _ => Settles.product)
      (percents.quiet fun _ => by simp [productGap, noDigit]),
    fillGaps_append (chain.imp fun _ _ => Settles.empty) (products.quiet fun _ => by simp [emptyGap])]

theorem prepare_eq_self (kept : ∀ char ∈ first, Kept char) (chain : first.IsChain Settles)
    (free : EndsFree first) : prepare first = first := by
  have prepared := prepare_append kept chain free []
  have empty : prepare [] = [] := rfl
  rwa [empty, List.append_nil] at prepared

theorem complete_eq_self (chain : first.IsChain Settles) : complete first = first := by
  have completed := complete_append chain (.inl rfl)
  have empty : complete [] = [] := rfl
  rwa [empty, List.append_nil] at completed

variable {text : List Char}

/-- Where no power sign stands behind a digit, no power of literals is computed. -/
theorem substituteFrom_powers (before : Option Char)
    (chain : text.IsChain fun left right => Text.isDigit left = true → right ≠ '^') :
    substituteFrom powerPattern before 0 text = text := by
  refine substituteFrom_eq_self (fun before rest inside => ?_) before
  rw [Option.eq_none_iff_forall_ne_some]
  intro found matched
  obtain ⟨base, exponent, others, rfl, power⟩ := powerPattern_eq_some_iff.mp matched
  obtain ⟨digit, final, last⟩ := power.first.getLast?
  obtain ⟨front, rfl⟩ := List.getLast?_eq_some_iff.mp final
  have pairs := chain.suffix inside
  rw [List.append_assoc] at pairs
  exact absurd rfl ((List.isChain_append_cons_cons.mp pairs).2.1 last)

/-- A text with nothing left to do reaches the reader as it was entered. -/
theorem normalize_eq_self (kept : ∀ char ∈ text, Kept char) (chain : text.IsChain Settles)
    (powers : text.IsChain fun left right => Text.isDigit left = true → right ≠ '^')
    (free : EndsFree text) : normalize text = text := by
  rw [Entry.normalize, prepare_eq_self kept chain free, foldPowers, substitute,
    substituteFrom_powers none powers, complete_eq_self chain]

end Reckon.Proofs.SettledText
