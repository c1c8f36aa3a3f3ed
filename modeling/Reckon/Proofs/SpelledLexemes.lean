import Reckon.Proofs.LiteralPlace
import Reckon.Proofs.QuotientSign

/-! Lexemes that were read and are written one after the other are read again as they were.
A minus is a sign, an operator or half of a literal by what stands before it, so it matters
which lexemes the reader finds side by side. -/

namespace Reckon.Proofs.SpelledLexemes
open Lexer LexedNeighbours NumeralText Scanning

def opens : Option Lexeme → Bool
  | none | some .opening | some .negate | some (.binary _) => true
  | some (.number _) | some .closing | some .percent | some (.function _) => false

def hangs : Option Lexeme → Bool
  | some .negate | some (.function _) => true
  | _ => false

def complete : Option Lexeme → Bool
  | some (.number _) | some .negate | some (.function _) => false
  | _ => true

/-- What the reader finds behind a lexeme, or at the end of the text. -/
def Adjoins (last? : Option Lexeme) : Option Lexeme → Prop
  | some .opening => True
  | some (.function _) => ∀ f, last? ≠ some (.function f)
  | some (.number x) => complete last? = true ∧ (isNegative x = true → opens last? = true)
  | some .negate => complete last? = true ∧ opens last? = true
  | some (.binary .subtract) => hangs last? = false ∧ opens last? = false
  | _ => hangs last? = false

def Legible : Option Lexeme → List Lexeme → Prop
  | last?, [] => Adjoins last? none
  | last?, item :: rest => Adjoins last? (some item) ∧ Legible (some item) rest

variable {last? : Option Lexeme} {before : Option Char} {position : Nat} {pending grown begun : Pending}
  {char : Char} {text : List Char} {item : Lexeme} {items finished rest : List Lexeme}

private theorem hangs_of_complete (whole : complete last? = true) : hangs last? = false := by
  cases last? with
  | none => rfl
  | some last => cases last <;> simp_all [complete, hangs]

private theorem complete_of_opens (awaits : opens last? = true) (free : hangs last? = false) :
    complete last? = true := by
  cases last? with
  | none => rfl
  | some last => cases last <;> simp_all [complete, hangs, opens]

theorem Legible.adjoins (legible : Legible last? items) : Adjoins last? items.head? := by
  cases items with
  | nil => exact legible
  | cons item rest => exact legible.1

/-- An operand or an argument stands behind what cannot do without one. -/
theorem Adjoins.called {next? : Option Lexeme} (adjoins : Adjoins last? next?) (free : hangs last? = true) :
    next? = some .opening ∨ last? = some .negate ∧ ∃ f, next? = some (.function f) := by
  unfold Adjoins at adjoins
  split at adjoins
  case h_1 => exact .inl rfl
  case h_2 f =>
    refine .inr ⟨?_, f, rfl⟩
    unfold hangs at free
    split at free
    case h_1 => rfl
    case h_2 g => exact absurd rfl (adjoins g)
    case h_3 => cases free
  case h_3 | h_4 => simp [hangs_of_complete adjoins.1] at free
  case h_5 => simp [adjoins.1] at free
  case h_6 => simp [adjoins] at free

private theorem closed_of_numeral (numeral : isNumeralChar char = true) : opensOperand (some char) = false := by
  rw [← Bool.not_eq_true]
  intro opens
  obtain ⟨lexeme, known, -⟩ := exists_symbol opens
  rw [(symbol_of_symbol? known).1] at numeral
  cases numeral

private theorem opensOperand_symbol (known : symbol? char = some item) :
    complete (some item) = true ∧ opensOperand (some char) = opens (some item) ∧
      (char = '-' → item = .binary .subtract) := by
  have minus : char = '-' → item = .binary .subtract := by
    rintro rfl
    exact (Option.some.inj known).symm
  rcases symbol_cases known with ⟨rfl, rfl⟩ | ⟨rfl, rfl⟩ | ⟨rfl, rfl⟩ | ⟨operator, rfl, rfl⟩
  · exact ⟨rfl, rfl, minus⟩
  · exact ⟨rfl, rfl, minus⟩
  · exact ⟨rfl, rfl, minus⟩
  · cases operator <;> exact ⟨rfl, rfl, minus⟩

inductive Stands : Option Lexeme → Option Char → Pending → Prop
  | nothing {last? : Option Lexeme} {before : Option Char} (same : opensOperand before = opens last?)
      (whole : complete last? = true) : Stands last? before .nothing
  | sign {last? : Option Lexeme} {before : Option Char} (whole : complete last? = true)
      (awaits : opens last? = true) : Stands last? before .sign
  | numeral {last? : Option Lexeme} {before : Option Char} (negative : Bool) (digits : List Char)
      (closed : opensOperand before = false) (whole : complete last? = true)
      (signed : negative = true → opens last? = true) : Stands last? before (.numeral negative digits)
  | word {last? : Option Lexeme} {before : Option Char} (letters : List Char)
      (fresh : ∀ f, last? ≠ some (.function f)) : Stands last? before (.word letters)

theorem Stands.extend (stands : Stands last? before pending)
    (extended : extend? before pending char = some grown) : Stands last? (some char) grown := by
  cases extended_of_extend? extended with
  | first numeral =>
    cases stands with
    | nothing same whole => exact .numeral _ _ (closed_of_numeral numeral) whole nofun
  | signed numeral =>
    cases stands with
    | sign whole awaits => exact .numeral _ _ (closed_of_numeral numeral) whole fun _ => awaits
  | canceled =>
    cases stands with
    | sign whole awaits => exact .nothing awaits.symm whole
  | numeral _ _ numeral =>
    cases stands with
    | numeral _ _ _ whole signed => exact .numeral _ _ (closed_of_numeral numeral) whole signed
  | word _ letter =>
    cases stands with
    | word _ fresh => exact .word _ fresh

/-- Where nothing is left open, a minus is a sign exactly where one can stand. -/
theorem legible_started (same : opensOperand before = opens last?) (free : hangs last? = false)
    (starts : start before char position = .ok (finished, begun))
    (later : ∀ last?, Stands last? (some char) begun → Legible last? items) :
    Legible last? (finished ++ items) := by
  cases started_of_start starts with
  | sign awaits =>
    rw [same] at awaits
    exact later last? (.sign (complete_of_opens awaits free) awaits)
  | word letter =>
    refine later last? (.word _ ?_)
    rintro f rfl
    cases free
  | @symbol _ lexeme known =>
    obtain ⟨whole, opens', minus⟩ := opensOperand_symbol known
    refine ⟨?_, later (some lexeme) (.nothing opens' whole)⟩
    have noSign : char = '-' → opens last? = false := by
      rintro rfl
      rw [← same, ← Bool.not_eq_true]
      intro sign
      simp [start, sign] at starts
    rcases symbol_cases known with ⟨rfl, rfl⟩ | ⟨rfl, rfl⟩ | ⟨rfl, rfl⟩ | ⟨operator, rfl, rfl⟩
    · trivial
    · exact free
    · exact free
    · cases operator with
      | subtract => exact ⟨free, noSign rfl⟩
      | add | multiply | divide | power => exact free

/-- An argument is opened, or named by a function. -/
theorem legible_argument (argument : char = '(' ∨ Text.isLetter char = true)
    (fresh : char ≠ '(' → ∀ f, last? ≠ some (.function f))
    (starts : start before char position = .ok (finished, begun))
    (later : ∀ last?, Stands last? (some char) begun → Legible last? items) :
    Legible last? (finished ++ items) := by
  cases started_of_start starts with
  | sign => rcases argument with same | letter <;> contradiction
  | word letter =>
    refine later last? (.word _ (fresh ?_))
    rintro rfl
    cases letter
  | symbol known =>
    have letter := (symbol_of_symbol? known).2
    obtain rfl := argument.resolve_right (by simp [letter])
    obtain rfl := Option.some.inj known
    exact ⟨trivial, later _ (.nothing rfl rfl)⟩

/-- Only a numeral with a sign is read as a negative number. -/
theorem signed_of_numeral {negative : Bool} {digits : List Char}
    (read : numeral negative digits = .ok items) :
    ∃ x, items = [.number x] ∧ (x.isFinite = true → isNegative x = true → negative = true) := by
  unfold numeral at read
  split at read
  case h_2 => cases read
  case h_1 decimal _ =>
    obtain rfl := Except.ok.inj read
    refine ⟨_, rfl, fun finite sign => ?_⟩
    cases negative with
    | true => rfl
    | false =>
      have unsigned := QuotientSign.unsigned_iff.mp (QuotientSign.unsigned_toFloat decimal)
      exact absurd sign (by simp [unsigned])

private theorem legible_of_lexFrom (read : lexFrom before position pending text = .ok items)
    (stands : Stands last? before pending) (finite : ∀ x, .number x ∈ items → x.isFinite = true) :
    Legible last? items := by
  induction text generalizing before position pending last? items with
  | nil =>
    cases stands with
    | nothing same whole =>
      obtain rfl := Except.ok.inj read
      exact hangs_of_complete whole
    | sign => cases settled_of_settle read
    | word => cases settled_of_settle read
    | numeral negative digits closed whole signed =>
      obtain ⟨x, rfl, sign⟩ := signed_of_numeral read
      exact ⟨⟨whole, fun negative => signed (sign (finite x (by simp)) negative)⟩, rfl⟩
  | cons char rest ih =>
    rw [lexFrom] at read
    split at read
    case h_1 grown extended => exact ih read (stands.extend extended) finite
    case h_2 ends =>
      obtain ⟨settled, settles, read⟩ := bind_ok read
      obtain ⟨⟨finished, begun⟩, starts, read⟩ := bind_ok read
      obtain ⟨others, read', read⟩ := bind_ok read
      obtain rfl := Except.ok.inj read
      have later (last? : Option Lexeme) (stands : Stands last? (some char) begun) : Legible last? others :=
        ih read' stands fun x member => finite x (by simp [member])
      rw [List.append_assoc]
      cases stands with
      | nothing same whole =>
        obtain rfl := Except.ok.inj settles
        rw [List.nil_append]
        exact legible_started same (hangs_of_complete whole) starts later
      | numeral negative digits closed whole signed =>
        obtain ⟨x, rfl, sign⟩ := signed_of_numeral settles
        have next : Legible (some (.number x)) (finished ++ others) := legible_started closed rfl starts later
        exact ⟨⟨whole, fun negative => signed (sign (finite x (by simp)) negative)⟩, next⟩
      | word letters fresh =>
        cases settled_of_settle settles with
        | word _ f =>
          have next : Legible (some (.function f)) (finished ++ others) :=
            legible_argument (.inl rfl) (fun other => absurd rfl other) starts later
          exact ⟨fresh, next⟩
      | sign whole awaits =>
        cases settled_of_settle settles with
        | sign argument =>
          have fresh (f : Function) : some Lexeme.negate ≠ some (.function f) := by simp
          have next : Legible (some .negate) (finished ++ others) :=
            legible_argument argument (fun _ => fresh) starts later
          exact ⟨⟨whole, awaits⟩, next⟩

private theorem spelling_symbol (whole : complete (some item) = true) :
    ∃ char, item.spelling = [char] ∧ symbol? char = some item := by
  cases item with
  | number | negate | function => cases whole
  | opening => exact ⟨'(', rfl, rfl⟩
  | closing => exact ⟨')', rfl, rfl⟩
  | percent => exact ⟨'%', rfl, rfl⟩
  | binary operator => exact ⟨operator.symbol, by cases operator <;> rfl, by cases operator <;> rfl⟩

/-- A number is read up to its end, and behind it stands no numeral. -/
theorem lexFrom_number {x : Float} {rest : List Char} (finite : x.isFinite = true)
    (signed : isNegative x = true → opensOperand before = true)
    (stops : ∀ char ∈ rest.head?, isNumeralChar char = false) :
    ∃ beside place, opensOperand beside = false ∧
      lexFrom before position .nothing (literalText x ++ rest) =
        (.number x :: ·) <$> lexFrom beside place .nothing rest := by
  obtain ⟨digits, value, written, literal, back⟩ := literalText_signed finite
  have closed : opensOperand digits.getLast? = false := by
    rw [List.getLast?_eq_some_getLast literal.filled]
    exact closed_of_numeral (literal.chars _ (List.getLast_mem literal.filled))
  have read {before : Option Char} {position : Nat} :=
    @LiteralPlace.lexFrom_literal digits rest value before position literal (isNegative x) stops
  have value_eq : LiteralPlace.signed (isNegative x) value = x := back
  rw [value_eq] at read
  rw [written]
  refine ⟨digits.getLast?, ?_⟩
  cases negative : isNegative x with
  | false =>
    rw [negative] at read
    exact ⟨_, closed, read⟩
  | true =>
    rw [negative] at read
    rw [signedText, if_pos rfl, List.cons_append, lexFrom_sign (signed negative)]
    exact ⟨_, closed, read⟩

/-- Behind a number no numeral goes on. -/
theorem stops_of_legible {x : Float} (legible : Legible (some (.number x)) rest) :
    ∀ char ∈ (rest.flatMap Lexeme.spelling).head?, isNumeralChar char = false := by
  cases rest with
  | nil => exact nofun
  | cons next more =>
    rw [List.flatMap_cons]
    by_cases whole : complete (some next) = true
    · obtain ⟨char, written, known⟩ := spelling_symbol whole
      rw [written]
      rintro _ ⟨⟩
      exact (symbol_of_symbol? known).1
    · cases next with
      | opening | closing | percent | binary => exact absurd rfl whole
      | number => cases legible.1.1
      | negate =>
        rintro _ ⟨⟩
        rfl
      | function f =>
        cases f <;>
        · rintro _ ⟨⟩
          rfl

/-- What stands behind a sign of its own begins with a parenthesis or a letter. -/
theorem spelling_argument (argument : rest.head? = some .opening ∨ ∃ f, rest.head? = some (.function f)) :
    ∃ char others, rest.flatMap Lexeme.spelling = char :: others ∧
      (char = '(' ∨ Text.isLetter char = true) ∧ isNumeralChar char = false := by
  rcases argument with head | ⟨f, head⟩
  · obtain ⟨more, rfl⟩ := List.head?_eq_some_iff.mp head
    exact ⟨'(', _, rfl, .inl rfl, rfl⟩
  · obtain ⟨more, rfl⟩ := List.head?_eq_some_iff.mp head
    cases f <;> exact ⟨_, _, rfl, .inr rfl, rfl⟩

/-- Lexemes whose neighbours are as the reader finds them are read as they are. What stands
before them matters only where they begin with a minus. -/
theorem lexFrom_spelling (legible : Legible last? items)
    (finite : ∀ x, .number x ∈ items → x.isFinite = true)
    (same : (items.flatMap Lexeme.spelling).head? = some '-' → opensOperand before = opens last?)
    (position : Nat) : lexFrom before position .nothing (items.flatMap Lexeme.spelling) = .ok items := by
  induction items generalizing last? before position with
  | nil => rfl
  | cons item rest ih =>
    obtain ⟨adjoins, legible⟩ := legible
    have finite' : ∀ x, .number x ∈ rest → x.isFinite = true := fun x member => finite x (by simp [member])
    rw [List.flatMap_cons] at same ⊢
    by_cases whole : complete (some item) = true
    · obtain ⟨char, written, known⟩ := spelling_symbol whole
      obtain ⟨-, opens', minus⟩ := opensOperand_symbol known
      rw [written] at same ⊢
      have binary : char = '-' → opensOperand before = false := by
        rintro rfl
        obtain rfl := minus rfl
        rw [same rfl]
        exact adjoins.2
      rw [List.singleton_append, lexFrom_symbol known binary, ih legible finite' (fun _ => opens')]
      rfl
    · cases item with
      | opening | closing | percent | binary => exact absurd rfl whole
      | number x =>
        have signed (negative : isNegative x = true) : opensOperand before = true := by
          obtain ⟨digits, -, written, -⟩ := literalText_signed (finite x (by simp))
          rw [same (by simp [Lexeme.spelling, written, signedText, negative])]
          exact adjoins.2 negative
        obtain ⟨beside, place, closed, read⟩ :=
          @lexFrom_number before position x _ (finite x (by simp)) signed (stops_of_legible legible)
        rw [Lexeme.spelling, read, ih legible finite' fun _ => closed]
        rfl
      | negate =>
        have awaits : opensOperand before = true := (same rfl).trans adjoins.2
        have argument := (legible.adjoins.called rfl).imp_right And.right
        obtain ⟨char, others, written, argument, fresh⟩ := spelling_argument argument
        have read := @ih (some .negate) (some '-') legible finite' (fun _ => rfl) (position + 1)
        rw [written] at read ⊢
        rw [Lexeme.spelling, List.singleton_append, lexFrom_sign awaits, lexFrom_negate argument fresh, read]
        rfl
      | function f =>
        have head : rest.head? = some .opening := (legible.adjoins.called rfl).resolve_right (by simp)
        obtain ⟨more, rfl⟩ := List.head?_eq_some_iff.mp head
        obtain ⟨last, read⟩ := lexFrom_name f before position (more.flatMap Lexeme.spelling)
        have written : (Lexeme.opening :: more).flatMap Lexeme.spelling =
            '(' :: more.flatMap Lexeme.spelling := rfl
        have argument := @ih (some (.function f)) last legible finite' (by simp [written])
          (position + f.name.toList.length)
        rw [written] at argument ⊢
        have name : (Lexeme.function f).spelling = f.name.toList := rfl
        rw [name, read, argument]
        rfl

/-- The lexemes of a text, each in its spelling, are a text that is read as the same lexemes. -/
theorem lex_spelling {text : List Char} {items : List Lexeme} (read : lex text = .ok items)
    (finite : ∀ x, .number x ∈ items → x.isFinite = true) :
    lex (items.flatMap Lexeme.spelling) = .ok items := by
  have legible : Legible none items := legible_of_lexFrom read (.nothing rfl rfl) finite
  exact lexFrom_spelling legible finite (fun _ => rfl) 0

theorem lex_spelling_signs :
    ∃ items, lex "--2.50---3*-SIN(-.5)%".toList = .ok items ∧
      (∀ x, .number x ∈ items → x.isFinite = true) ∧
      items.flatMap Lexeme.spelling = "2.5-3*-sin(-0.5)%".toList ∧
      lex "2.5-3*-sin(-0.5)%".toList = .ok items := by
  have spelled : (lex "--2.50---3*-SIN(-.5)%".toList).toOption.map (·.flatMap Lexeme.spelling) =
      some "2.5-3*-sin(-0.5)%".toList := by decide +kernel
  have numbers : (lex "--2.50---3*-SIN(-.5)%".toList).toOption.map (·.all fun
      | .number x => x.isFinite
      | _ => true) = some true := by decide +kernel
  cases read : lex "--2.50---3*-SIN(-.5)%".toList with
  | error cause =>
    rw [read] at spelled
    cases spelled
  | ok items =>
    rw [read] at spelled numbers
    have spelled : items.flatMap Lexeme.spelling = "2.5-3*-sin(-0.5)%".toList := Option.some.inj spelled
    have finite : ∀ x, .number x ∈ items → x.isFinite = true :=
      fun x member => List.all_eq_true.mp (Option.some.inj numbers) _ member
    have again := lex_spelling read finite
    rw [spelled] at again
    exact ⟨items, rfl, finite, spelled, again⟩

end Reckon.Proofs.SpelledLexemes
