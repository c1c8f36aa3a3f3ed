import Reckon.Lexeme.Lexer

/-! How the reader goes through a text: what was begun is settled where nothing continues
it, and each kind of lexeme is read from the characters that spell it. -/

namespace Reckon.Lexer

variable {before : Option Char} {position : Nat} {pending : Pending} {char : Char}
  {lexeme : Lexeme} {rest letters digits more : List Char} {negative : Bool}

/-- What nothing continues is settled, and the reader goes on afresh. -/
theorem lexFrom_settle (ends : extend? before pending char = none)
    (fresh : isNumeralChar char = false) :
    lexFrom before position pending (char :: rest) =
      settle pending (some char) position >>= fun settled =>
        (settled ++ ·) <$> lexFrom before position .nothing (char :: rest) := by
  have nothing : extend? before .nothing char = none := by simp [extend?, fresh]
  simp only [lexFrom, ends, nothing]
  cases settle pending (some char) position with
  | error cause => rfl
  | ok settled =>
    cases start before char position with
    | error cause => rfl
    | ok next =>
      obtain ⟨finished, begun⟩ := next
      simp only [settle, bind, Except.bind, pure, Except.pure]
      cases lexFrom (some char) (position + 1) begun rest with
      | error cause => rfl
      | ok others => simp [Functor.map, Except.map]

theorem symbol_of_symbol? (known : symbol? char = some lexeme) :
    isNumeralChar char = false ∧ Text.isLetter char = false := by
  unfold symbol? at known
  split at known
  case h_4 =>
    obtain ⟨operator, found, -⟩ := Option.map_eq_some_iff.mp known
    rw [← BinaryOp.symbol_of_ofSymbol? found]
    cases operator <;> decide
  all_goals decide

/-- A symbol is a lexeme of its own, a minus only where it is no sign. -/
theorem lexFrom_symbol (known : symbol? char = some lexeme)
    (binary : char = '-' → opensOperand before = false) :
    lexFrom before position .nothing (char :: rest) =
      (lexeme :: ·) <$> lexFrom (some char) (position + 1) .nothing rest := by
  obtain ⟨numeral, letter⟩ := symbol_of_symbol? known
  have noSign : ¬ (char = '-' ∧ opensOperand before = true) := by
    rintro ⟨minus, opens⟩
    rw [binary minus] at opens
    cases opens
  simp only [lexFrom, extend?, numeral, Bool.false_eq_true, if_false, settle, start, noSign, letter,
    known, bind, Except.bind, pure, Except.pure]
  rfl

theorem lexFrom_sign (opens : opensOperand before = true) :
    lexFrom before position .nothing ('-' :: rest) =
      lexFrom (some '-') (position + 1) .sign rest := by
  have numeral : isNumeralChar '-' = false := by decide
  simp only [lexFrom, extend?, numeral, Bool.false_eq_true, if_false, settle, start, opens, and_self,
    if_true, bind, Except.bind, pure, Except.pure, List.nil_append]
  cases lexFrom (some '-') (position + 1) .sign rest <;> rfl

private theorem lexFrom_digits (before : Option Char) (position : Nat) (negative : Bool)
    (digits rest : List Char) (inside : ∀ char ∈ more, isNumeralChar char = true) :
    ∃ last, lexFrom before position (.numeral negative digits) (more ++ rest) =
      lexFrom last (position + more.length) (.numeral negative (digits ++ more)) rest := by
  induction more generalizing before position digits with
  | nil => exact ⟨before, by simp⟩
  | cons char more ih =>
    rw [List.forall_mem_cons] at inside
    obtain ⟨last, steps⟩ := ih (some char) (position + 1) (digits ++ [char]) inside.2
    refine ⟨last, ?_⟩
    simp only [List.cons_append, lexFrom, extend?, inside.1, if_true, steps]
    simp [Nat.add_assoc, Nat.add_comm 1]

private theorem lexFrom_letters (before : Option Char) (position : Nat) (letters rest : List Char)
    (inside : ∀ char ∈ more, Text.isLetter char = true) :
    ∃ last, lexFrom before position (.word letters) (more ++ rest) =
      lexFrom last (position + more.length) (.word (letters ++ more)) rest := by
  induction more generalizing before position letters with
  | nil => exact ⟨before, by simp⟩
  | cons char more ih =>
    rw [List.forall_mem_cons] at inside
    obtain ⟨last, steps⟩ := ih (some char) (position + 1) (letters ++ [char]) inside.2
    refine ⟨last, ?_⟩
    simp only [List.cons_append, lexFrom, extend?, inside.1, if_true, steps]
    simp [Nat.add_assoc, Nat.add_comm 1]

def signedText (negative : Bool) (digits : List Char) : List Char :=
  if negative then '-' :: digits else digits

theorem signedText_ne_nil (filled : digits ≠ []) : signedText negative digits ≠ [] := by
  cases negative <;> simp [signedText, filled]

theorem lexFrom_numeral (position : Nat) (rest : List Char) (filled : digits ≠ [])
    (inside : ∀ char ∈ digits, isNumeralChar char = true)
    (opens : negative = true → opensOperand before = true) :
    ∃ last, lexFrom before position .nothing (signedText negative digits ++ rest) =
      lexFrom last (position + (signedText negative digits).length) (.numeral negative digits) rest := by
  obtain ⟨first, others, rfl⟩ := List.exists_cons_of_ne_nil filled
  rw [List.forall_mem_cons] at inside
  cases negative with
  | false =>
    obtain ⟨last, steps⟩ := lexFrom_digits (some first) (position + 1) false [first] rest inside.2
    refine ⟨last, ?_⟩
    simp only [signedText, Bool.false_eq_true, if_false, List.cons_append, lexFrom, extend?, inside.1,
      if_true, steps]
    simp [Nat.add_assoc, Nat.add_comm 1]
  | true =>
    obtain ⟨last, steps⟩ := lexFrom_digits (some first) (position + 2) true [first] rest inside.2
    refine ⟨last, ?_⟩
    rw [signedText, if_pos rfl, List.cons_append, lexFrom_sign (opens rfl)]
    simp only [List.cons_append, lexFrom, extend?, inside.1, if_true, steps]
    simp [Nat.add_assoc, Nat.add_comm 2]

theorem lexFrom_numeral_symbol (filled : digits ≠ [])
    (inside : ∀ char ∈ digits, isNumeralChar char = true)
    (opens : negative = true → opensOperand before = true) (known : symbol? char = some lexeme)
    (noMinus : char ≠ '-') :
    lexFrom before position .nothing (signedText negative digits ++ char :: rest) =
      numeral negative digits >>= fun settled => (settled ++ lexeme :: ·) <$>
        lexFrom (some char) (position + (signedText negative digits).length + 1) .nothing rest := by
  obtain ⟨last, steps⟩ := lexFrom_numeral position (char :: rest) filled inside opens
  have ends := (symbol_of_symbol? known).1
  rw [steps, lexFrom_settle (by simp [extend?, ends]) ends,
    lexFrom_symbol known fun minus => absurd minus noMinus]
  simp only [settle, Functor.map_map]

private theorem word_name (f : Function) : word f.name.toList (some '(') = .ok [.function f] := by
  have small : Text.lower f.name.toList = f.name := by
    cases f <;> decide
  simp only [word, small, Function.named?_name, if_true]

/-- The name of a function is read where its argument opens. -/
theorem lexFrom_name (f : Function) (before : Option Char) (position : Nat) (rest : List Char) :
    ∃ last, lexFrom before position .nothing (f.name.toList ++ '(' :: rest) =
      (.function f :: ·) <$>
        lexFrom last (position + f.name.toList.length) .nothing ('(' :: rest) := by
  have letters : ∀ char ∈ f.name.toList,
      Text.isLetter char = true ∧ isNumeralChar char = false ∧ char ≠ '-' := by
    have all : f.name.toList.all fun char =>
        Text.isLetter char && !isNumeralChar char && char != '-' := by
      cases f <;> decide
    simpa [and_assoc] using all
  have read := word_name f
  obtain ⟨first, others, name⟩ : ∃ first others, f.name.toList = first :: others := by
    cases f <;> exact ⟨_, _, rfl⟩
  rw [name] at letters read
  obtain ⟨letter, numeral, minus⟩ := letters first (List.mem_cons_self ..)
  obtain ⟨last, steps⟩ := lexFrom_letters (some first) (position + 1) [first] ('(' :: rest)
    fun char inside => (letters char (List.mem_cons_of_mem _ inside)).1
  have begun : lexFrom before position .nothing (first :: (others ++ '(' :: rest)) =
      lexFrom (some first) (position + 1) (.word [first]) (others ++ '(' :: rest) := by
    simp only [lexFrom, extend?, numeral, Bool.false_eq_true, if_false, settle, start, minus,
      false_and, letter, if_true, bind, Except.bind, pure, Except.pure, List.nil_append]
    cases lexFrom (some first) (position + 1) (.word [first]) (others ++ '(' :: rest) <;> rfl
  have closed : extend? last (.word ([first] ++ others)) '(' = none := rfl
  refine ⟨last, ?_⟩
  rw [name, List.cons_append, begun, steps, lexFrom_settle closed (by decide), settle,
    List.singleton_append, read]
  simp [bind, Except.bind, Nat.add_assoc, Nat.add_comm 1]

/-- A sign in front of what is no numeral is an operator of its own. -/
theorem lexFrom_negate (ends : char = '(' ∨ Text.isLetter char = true)
    (fresh : isNumeralChar char = false) :
    lexFrom before position .sign (char :: rest) =
      (.negate :: ·) <$> lexFrom before position .nothing (char :: rest) := by
  have minus : char ≠ '-' := by
    rintro rfl
    rcases ends with same | letter
    · exact absurd same (by decide)
    · exact absurd letter (by decide)
  rw [lexFrom_settle (by simp [extend?, fresh, minus]) fresh, settle]
  simp only [ends, if_true]
  rfl

theorem bind_ok {ε α β : Type} {outcome : Except ε α} {next : α → Except ε β} {last : β}
    (passed : (outcome >>= next) = .ok last) : ∃ value, outcome = .ok value ∧ next value = .ok last := by
  cases outcome with
  | error cause => cases passed
  | ok value => exact ⟨value, rfl, passed⟩

theorem map_ok {ε α β : Type} {f : α → β} {outcome : Except ε α} {last : β}
    (passed : f <$> outcome = .ok last) : ∃ value, outcome = .ok value ∧ f value = last := by
  cases outcome with
  | error cause => cases passed
  | ok value => exact ⟨value, rfl, Except.ok.inj passed⟩

theorem liftCause_ok {α : Type} {outcome : Except Cause α} {value : α}
    (passed : liftCause outcome = .ok value) : outcome = .ok value := by
  cases outcome with
  | error cause => cases passed
  | ok value => exact congrArg Except.ok (Except.ok.inj passed)

private theorem settle_place {next? : Option Char} {items : List Lexeme} (place : Nat)
    (settled : settle pending next? position = .ok items) : settle pending next? place = .ok items := by
  cases pending with
  | sign =>
    cases next? with
    | none => cases settled
    | some char =>
      simp only [settle] at settled ⊢
      split at settled
      case isTrue ends => rw [if_pos ends, settled]
      case isFalse => cases settled
  | nothing | numeral | word => exact settled

private theorem start_place {beside : Option Char} {begun : List Lexeme × Pending} (place : Nat)
    (same : opensOperand before = opensOperand beside)
    (started : start before char position = .ok begun) : start beside char place = .ok begun := by
  unfold start at started ⊢
  rw [← same]
  split at started
  case isTrue sign => rw [if_pos sign, started]
  case isFalse noSign =>
    rw [if_neg noSign]
    split at started
    case isTrue letter => rw [if_pos letter, started]
    case isFalse other =>
      rw [if_neg other]
      cases known : symbol? char with
      | none => simp [known] at started
      | some lexeme => simpa [known] using started

/-- Where a text stands changes only what its errors say. -/
theorem lexFrom_congr {text : List Char} {items : List Lexeme} {beside : Option Char} (place : Nat)
    (same : opensOperand before = opensOperand beside)
    (read : lexFrom before position pending text = .ok items) :
    lexFrom beside place pending text = .ok items := by
  induction text generalizing before beside position place pending items with
  | nil => exact settle_place place read
  | cons char rest ih =>
    have extends' : extend? beside pending char = extend? before pending char := by
      cases pending <;> simp [extend?, same]
    rw [lexFrom] at read ⊢
    rw [extends']
    cases grown : extend? before pending char with
    | some pending =>
      rw [grown] at read
      exact ih (place + 1) rfl read
    | none =>
      rw [grown] at read
      obtain ⟨settled, first, read⟩ := bind_ok read
      obtain ⟨⟨finished, begun⟩, second, read⟩ := bind_ok read
      obtain ⟨others, third, read⟩ := bind_ok read
      simp only [settle_place place first, start_place place same second, ih (place + 1) rfl third, bind,
        Except.bind]
      exact read

end Reckon.Lexer
