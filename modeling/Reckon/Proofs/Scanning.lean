import Reckon.Proofs.LexedNeighbours

/-! Reading a text in two parts. The reader stops inside the text with the lexemes that it
has and with what it has begun, and goes on from there. -/

namespace Reckon.Proofs.Scanning
open Lexer LexedNeighbours

def scan (before : Option Char) (position : Nat) (pending : Pending) :
    List Char → Except Cause (List Lexeme × Pending)
  | [] => .ok ([], pending)
  | char :: rest =>
    match extend? before pending char with
    | some grown => scan (some char) (position + 1) grown rest
    | none => do
      let settled ← settle pending (some char) position
      let (finished, begun) ← start before char position
      let (others, last) ← scan (some char) (position + 1) begun rest
      return (settled ++ finished ++ others, last)

variable {before : Option Char} {position : Nat} {pending last : Pending} {char : Char}
  {front rest : List Char} {items : List Lexeme}

theorem lexFrom_append (before : Option Char) (position : Nat) (pending : Pending)
    (first rest : List Char) :
    lexFrom before position pending (first ++ rest) =
      scan before position pending first >>= fun (items, last) =>
        (items ++ ·) <$> lexFrom (first.getLast?.or before) (position + first.length) last rest := by
  induction first generalizing before position pending with
  | nil =>
    rw [List.nil_append, scan]
    cases known : lexFrom before position pending rest <;> simp [bind, Except.bind, known]
  | cons char first ih =>
    have left : (char :: first).getLast?.or before = first.getLast?.or (some char) := by
      cases first <;> simp [List.getLast?_cons]
    have place : position + (char :: first).length = position + 1 + first.length := by
      rw [List.length_cons]
      omega
    rw [List.cons_append, lexFrom, scan, left, place]
    cases extend? before pending char with
    | some grown => exact ih (some char) (position + 1) grown
    | none =>
      simp only [ih]
      cases settle pending (some char) position with
      | error cause => rfl
      | ok settled =>
        cases start before char position with
        | error cause => rfl
        | ok next =>
          obtain ⟨finished, begun⟩ := next
          simp only [bind, Except.bind, pure, Except.pure]
          cases scan (some char) (position + 1) begun first with
          | error cause => rfl
          | ok read =>
            obtain ⟨others, last⟩ := read
            simp only
            cases lexFrom (first.getLast?.or (some char)) (position + 1 + first.length) last rest with
            | error cause => rfl
            | ok more => simp [Functor.map, Except.map]

inductive Steps (before : Option Char) (pending : Pending) (char : Char) :
    List Lexeme → Pending → Prop
  | extend {grown : Pending} (extended : extend? before pending char = some grown) :
      Steps before pending char [] grown
  | step {settled finished : List Lexeme} {begun : Pending} (place : Nat)
      (ends : extend? before pending char = none)
      (settles : settle pending (some char) place = .ok settled)
      (starts : start before char place = .ok (finished, begun)) :
      Steps before pending char (settled ++ finished) begun

/-- A character of no numeral is a minus taken for a sign, goes into a word, or is a symbol by
itself. -/
theorem Steps.sign_or_word_or_symbol {added : List Lexeme} (steps : Steps before pending char added last)
    (noNumeral : isNumeralChar char = false) :
    (char = '-' ∧ opensOperand before = true) ∨
      (Text.isLetter char = true ∧ ∃ letters, last = .word letters) ∨
      ∃ settled lexeme, symbol? char = some lexeme ∧ added = settled ++ [lexeme] ∧ last = .nothing := by
  cases steps with
  | extend extended =>
    cases extended_of_extend? extended with
    | first numeral | signed numeral | numeral _ _ numeral => simp [noNumeral] at numeral
    | canceled opens => exact .inl ⟨rfl, opens⟩
    | word _ letter => exact .inr (.inl ⟨letter, _, rfl⟩)
  | step place ends settles starts =>
    cases started_of_start starts with
    | sign opens => exact .inl ⟨rfl, opens⟩
    | word letter => exact .inr (.inl ⟨letter, _, rfl⟩)
    | symbol known => exact .inr (.inr ⟨_, _, known, rfl, rfl⟩)

theorem scan_concat (scanned : scan before position pending (front ++ [char]) = .ok (items, last)) :
    ∃ read middle added, scan before position pending front = .ok (read, middle) ∧
      Steps (front.getLast?.or before) middle char added last ∧ items = read ++ added := by
  induction front generalizing before position pending items with
  | nil =>
    refine ⟨[], pending, items, rfl, ?_, rfl⟩
    rw [List.nil_append, scan] at scanned
    rw [List.getLast?_nil, Option.none_or]
    split at scanned
    case h_1 grown extended =>
      obtain ⟨rfl, rfl⟩ := Prod.mk.inj (Except.ok.inj scanned)
      exact .extend extended
    case h_2 ends =>
      obtain ⟨settled, settles, scanned⟩ := bind_ok scanned
      obtain ⟨⟨finished, begun⟩, starts, scanned⟩ := bind_ok scanned
      obtain ⟨rfl, rfl⟩ := Prod.mk.inj (Except.ok.inj scanned)
      rw [List.append_nil]
      exact .step position ends settles starts
  | cons first front ih =>
    have left : (first :: front).getLast?.or before = front.getLast?.or (some first) := by
      cases front <;> simp [List.getLast?_cons]
    rw [List.cons_append, scan] at scanned
    rw [left, scan]
    split at scanned
    case h_1 => exact ih scanned
    case h_2 ends =>
      obtain ⟨settled, settles, scanned⟩ := bind_ok scanned
      obtain ⟨⟨finished, begun⟩, starts, scanned⟩ := bind_ok scanned
      obtain ⟨⟨others, final⟩, scanned', scanned⟩ := bind_ok scanned
      obtain ⟨rfl, rfl⟩ := Prod.mk.inj (Except.ok.inj scanned)
      obtain ⟨read, middle, added, known, steps, rfl⟩ := ih scanned'
      refine ⟨settled ++ finished ++ read, middle, added, ?_, steps, by simp⟩
      simp only [settles, starts, known, bind, Except.bind, pure, Except.pure]

theorem exists_symbol (opens : opensOperand (some char) = true) :
    ∃ lexeme, symbol? char = some lexeme ∧
      (lexeme = .opening ∨ ∃ operator, lexeme = .binary operator) := by
  simp only [opensOperand, Bool.or_eq_true, beq_iff_eq, Option.isSome_iff_exists] at opens
  rcases opens with ⟨operator, found⟩ | rfl
  · obtain rfl := BinaryOp.symbol_of_ofSymbol? found
    refine ⟨.binary operator, ?_, .inr ⟨operator, rfl⟩⟩
    cases operator <;> rfl
  · exact ⟨.opening, rfl, .inl rfl⟩

/-- A symbol that is no sign ends whatever was begun and is the last lexeme so far. -/
theorem scan_symbol {lexeme : Lexeme}
    (scanned : scan before position pending (front ++ [char]) = .ok (items, last))
    (known : symbol? char = some lexeme)
    (noSign : char = '-' → opensOperand (front.getLast?.or before) = false) :
    last = .nothing ∧ items.getLast? = some lexeme := by
  obtain ⟨read, middle, added, -, steps, rfl⟩ := scan_concat scanned
  obtain ⟨noNumeral, noLetter⟩ := symbol_of_symbol? known
  rcases steps.sign_or_word_or_symbol noNumeral with
    ⟨minus, opens⟩ | ⟨letter, -⟩ | ⟨settled, found, known', rfl, rfl⟩
  · simp [noSign minus] at opens
  · simp [noLetter] at letter
  · obtain rfl := Option.some.inj (known.symm.trans known')
    exact ⟨rfl, by simp⟩

def begun (negative : Bool) : Pending :=
  if negative then .sign else .nothing

/-- Whether a minus that ends a text is a sign that none before it cancels, where the text is
given from its end. -/
def endsInSign : List Char → Bool
  | '-' :: before => opensOperand before.head? && !endsInSign before
  | _ => false

private theorem endsInSign_eq_false (noSign : char = '-' → opensOperand front.head? = false) :
    endsInSign (char :: front) = false := by
  unfold endsInSign
  split
  case h_1 same =>
    obtain ⟨rfl, rfl⟩ := List.cons.inj same
    rw [noSign rfl]
    rfl
  case h_2 => rfl

theorem head?_of_endsInSign (sign : endsInSign front = true) : front.head? = some '-' := by
  unfold endsInSign at sign
  split at sign
  case h_1 => rfl
  case h_2 => cases sign

/-- A minus that opens an operand is begun as a sign, or cancels the sign before it. -/
theorem steps_sign {added : List Lexeme} {negative : Bool}
    (steps : Steps before (begun negative) '-' added last) (opens : opensOperand before = true) :
    added = [] ∧ last = begun (!negative) := by
  have noNumeral : isNumeralChar '-' = false := by decide
  cases steps with
  | extend extended =>
    cases negative with
    | false =>
      cases extended_of_extend? extended with
      | first numeral => cases numeral
    | true =>
      cases extended_of_extend? extended with
      | signed numeral => cases numeral
      | canceled => exact ⟨rfl, rfl⟩
  | step place ends settles starts =>
    cases negative with
    | true => simp [begun, extend?, noNumeral, opens] at ends
    | false =>
      obtain rfl := Except.ok.inj settles
      simp only [start, opens, and_self, if_true] at starts
      obtain ⟨rfl, rfl⟩ := Prod.mk.inj (Except.ok.inj starts)
      exact ⟨rfl, rfl⟩

/-- Where an operand may begin, nothing is begun but the sign that ends the text, and the last
lexeme awaits an operand. -/
theorem scan_opens (scanned : scan none position .nothing front = .ok (items, last))
    (opens : opensOperand front.getLast? = true) :
    last = begun (endsInSign front.reverse) ∧
      ∀ lexeme ∈ items.getLast?, lexeme = .opening ∨ ∃ operator, lexeme = .binary operator := by
  -- from the end of the text, since a sign may cancel the one before it
  induction front using List.reverseRecOn generalizing items last with
  | nil =>
    obtain ⟨rfl, rfl⟩ := Prod.mk.inj (Except.ok.inj scanned)
    exact ⟨rfl, by simp⟩
  | append_singleton front char ih =>
    rw [List.getLast?_concat] at opens
    rw [List.reverse_concat]
    by_cases sign : char = '-' ∧ opensOperand front.getLast? = true
    · obtain ⟨rfl, opens'⟩ := sign
      obtain ⟨read, middle, added, scanned', steps, rfl⟩ := scan_concat scanned
      obtain ⟨rfl, awaits⟩ := ih scanned' opens'
      obtain ⟨rfl, rfl⟩ := steps_sign steps (by simpa using opens')
      rw [endsInSign, List.head?_reverse, opens', Bool.true_and]
      exact ⟨rfl, by simpa using awaits⟩
    · obtain ⟨lexeme, known, awaits⟩ := exists_symbol opens
      have noSign : char = '-' → opensOperand front.getLast? = false := by simpa using sign
      obtain ⟨rfl, final⟩ := scan_symbol scanned known (by simpa using noSign)
      rw [endsInSign_eq_false (by simpa using noSign), final]
      refine ⟨rfl, ?_⟩
      rintro _ ⟨⟩
      exact awaits

theorem opensOperand_of_scan (scanned : scan before position pending (front ++ [char]) = .ok (items, last))
    (noNumeral : isNumeralChar char = false) (noLetter : Text.isLetter char = false)
    (noEnd : char ≠ ')' ∧ char ≠ '%') : opensOperand (some char) = true := by
  obtain ⟨read, middle, added, -, steps, -⟩ := scan_concat scanned
  rcases steps.sign_or_word_or_symbol noNumeral with ⟨rfl, -⟩ | ⟨letter, -⟩ | ⟨settled, found, known, -⟩
  · rfl
  · simp [noLetter] at letter
  · rcases symbol_cases known with ⟨rfl, -⟩ | ⟨rfl, -⟩ | ⟨rfl, -⟩ | ⟨operator, rfl, -⟩
    · rfl
    · exact absurd rfl noEnd.1
    · exact absurd rfl noEnd.2
    · cases operator <;> rfl

end Reckon.Proofs.Scanning
