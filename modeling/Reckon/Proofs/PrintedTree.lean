import Reckon.Proofs.LexerSteps
import Reckon.Proofs.NumeralText
import Reckon.Proofs.ReadText

/-! A tree printed with parentheses around every part evaluates to its value. -/

namespace Reckon.Expr

def literals : Expr → List Float
  | literal x => [x]
  | binary _ left right => left.literals ++ right.literals
  | negate operand | percent operand | function _ operand => operand.literals

end Reckon.Expr

namespace Reckon.Proofs.PrintedTree
open Entry Grammar Lexer ReadText SettledText NumeralText

/-- Neighbours that no pass before the reader takes any notice of. -/
def Inert (left right : Char) : Prop :=
  Settles left right ∧ (Text.isDigit left = true → right ≠ '^')

instance (left right : Char) : Decidable (Inert left right) :=
  inferInstanceAs (Decidable (_ ∧ _))

private theorem inert_numerals : ∀ left ∈ numeralChars, Kept left ∧ Inert '(' left ∧ Inert left ')' ∧
    ∀ right ∈ numeralChars, Inert left right := by
  decide +kernel

variable {whole fraction : List Char} {x : Float}

structure Enclosed (text : List Char) : Prop where
  front : text.head? = some '('
  back : text.getLast? = some ')'
  kept : ∀ char ∈ text, Kept char
  chain : text.IsChain Inert

theorem Enclosed.normalize (enclosed : Enclosed text) : normalize text = text := by
  refine normalize_eq_self enclosed.kept (enclosed.chain.imp fun _ _ => And.left)
    (enclosed.chain.imp fun _ _ => And.right) fun last found => ?_
  obtain rfl : ')' = last := by simpa [enclosed.back] using found
  decide

private theorem enclosed_group {inner : List Char} (kept : ∀ char ∈ inner, Kept char)
    (chain : inner.IsChain Inert) (front : ∀ next ∈ inner.head?, Inert '(' next)
    (back : ∀ last ∈ inner.getLast?, Inert last ')') (filled : inner ≠ []) :
    Enclosed ('(' :: inner ++ [')']) := by
  refine ⟨rfl, by simp [List.getLast?_cons], ?_, ?_⟩
  · rw [List.forall_mem_append, List.forall_mem_cons, List.forall_mem_singleton]
    exact ⟨⟨by decide, kept⟩, by decide⟩
  · rw [List.isChain_append, List.isChain_cons]
    refine ⟨⟨front, chain⟩, .singleton _, fun last found next head => ?_⟩
    obtain rfl : ')' = next := by simpa using head
    obtain ⟨first, others, rfl⟩ := List.exists_cons_of_ne_nil filled
    exact back last (by simpa [List.getLast?_cons_cons] using found)

theorem inert_name (f : Function) :
    (∀ char ∈ f.name.toList, Kept char) ∧ f.name.toList.IsChain Inert ∧
      (∀ next ∈ f.name.toList.head?, Inert '(' next) ∧
      (∀ last ∈ f.name.toList.getLast?, Inert last '(') ∧ f.name.toList ≠ [] := by
  cases f <;> decide +kernel

private theorem inert_symbol (operator : BinaryOp) :
    Kept operator.symbol ∧ Inert ')' operator.symbol ∧ Inert operator.symbol '(' := by
  cases operator <;> decide

theorem enclosed_print (tree : Expr) (finite : ∀ x ∈ tree.literals, x.isFinite = true) :
    Enclosed tree.print := by
  induction tree with
  | literal x =>
    have chars := literalText_chars (finite x (by simp [Expr.literals]))
    refine enclosed_group (fun char member => (inert_numerals char (chars char member)).1) ?_ ?_ ?_ ?_
    · exact (List.pairwise_of_forall_mem_list fun left member right member' =>
        (inert_numerals left (chars left member)).2.2.2 right (chars right member')).isChain
    · exact fun next head => (inert_numerals next (chars next (List.mem_of_mem_head? head))).2.1
    · exact fun last found => (inert_numerals last (chars last (List.mem_of_getLast? found))).2.2.1
    · obtain ⟨digits, value, written, literal, -⟩ :=
        literalText_signed (finite x (by simp [Expr.literals]))
      rw [written]
      exact signedText_ne_nil literal.filled
  | negate operand ih =>
    obtain ⟨front, back, kept, chain⟩ := ih finite
    refine @enclosed_group ('-' :: operand.print) ?_ ?_ ?_ ?_ (by simp)
    · exact List.forall_mem_cons.mpr ⟨by decide, kept⟩
    · rw [List.isChain_cons, front]
      exact ⟨by simp; decide, chain⟩
    · simp; decide
    · simp [List.getLast?_cons, back]; decide
  | percent operand ih =>
    obtain ⟨front, back, kept, chain⟩ := ih finite
    have group := @enclosed_group (operand.print ++ ['%']) ?_ ?_ ?_ ?_ (by simp)
    · simpa [Expr.print] using group
    · exact List.forall_mem_append.mpr ⟨kept, by simp; decide⟩
    · rw [List.isChain_append, back]
      exact ⟨chain, .singleton _, by simp; decide⟩
    · simp [List.head?_append, front]; decide
    · simp; decide
  | function f argument ih =>
    obtain ⟨front, back, kept, chain⟩ := ih finite
    obtain ⟨kept', chain', front', back', filled⟩ := inert_name f
    refine @enclosed_group (f.name.toList ++ argument.print) ?_ ?_ ?_ ?_ (by simp [filled])
    · exact List.forall_mem_append.mpr ⟨kept', kept⟩
    · rw [List.isChain_append, front]
      exact ⟨chain', chain, by simpa using back'⟩
    · obtain ⟨first, others, name⟩ := List.exists_cons_of_ne_nil filled
      rw [name] at front' ⊢
      exact front'
    · simp [List.getLast?_append, back]; decide
  | binary operator left right ihLeft ihRight =>
    simp only [Expr.literals, List.forall_mem_append] at finite
    obtain ⟨front, back, kept, chain⟩ := ihLeft finite.1
    obtain ⟨front', back', kept', chain'⟩ := ihRight finite.2
    obtain ⟨plain, before, after⟩ := inert_symbol operator
    have group := @enclosed_group (left.print ++ operator.symbol :: right.print) ?_ ?_ ?_ ?_ (by simp)
    · simpa [Expr.print] using group
    · exact List.forall_mem_append.mpr ⟨kept, List.forall_mem_cons.mpr ⟨plain, kept'⟩⟩
    · rw [List.isChain_append, List.isChain_cons, back, front']
      exact ⟨chain, ⟨by simpa using after, chain'⟩, by simpa using before⟩
    · simp [List.head?_append, front]; decide
    · simp [List.getLast?_append, List.getLast?_cons, back']; decide

def lexemes : Expr → List Lexeme
  | .literal x => [.opening, .number x, .closing]
  | .binary operator left right =>
    .opening :: lexemes left ++ .binary operator :: lexemes right ++ [.closing]
  | .negate operand => .opening :: .negate :: lexemes operand ++ [.closing]
  | .percent operand => .opening :: lexemes operand ++ [.percent, .closing]
  | .function f argument => .opening :: .function f :: lexemes argument ++ [.closing]

private theorem reads_binary {items others : List Lexeme} {left right : Expr}
    (operator : BinaryOp) (first : Reads .atom items left) (second : Reads .atom others right) :
    Reads .sum (items ++ .binary operator :: others) (.binary operator left right) := by
  have factor := Reads.factor (.unsigned (.base (.bare first)))
  have factor' := Reads.unsigned (.base (.bare second))
  cases operator with
  | add => exact .sum .add rfl (.term factor) (.factor factor')
  | subtract => exact .sum .subtract rfl (.term factor) (.factor factor')
  | multiply => exact .term (.product .multiply rfl factor factor')
  | divide => exact .term (.product .divide rfl factor factor')
  | power => exact .term (.factor (.unsigned (.power (.base (.bare first)) (.bare second))))

/-- Parentheses around every part leave the tree as the only reading. -/
theorem reads_lexemes (tree : Expr) :
    ∃ items, lexemes tree = .opening :: items ++ [.closing] ∧ Reads .sum items tree := by
  induction tree with
  | literal x => exact ⟨[.number x], rfl, .term (.factor (.unsigned (.base (.bare (.number x)))))⟩
  | binary operator left right ihLeft ihRight =>
    obtain ⟨items, written, reading⟩ := ihLeft
    obtain ⟨others, written', reading'⟩ := ihRight
    refine ⟨_, rfl, ?_⟩
    rw [written, written']
    exact reads_binary operator (.group reading) (.group reading')
  | negate operand ih =>
    obtain ⟨items, written, reading⟩ := ih
    refine ⟨_, rfl, ?_⟩
    rw [written]
    exact .term (.factor (.negate (.unsigned (.base (.bare (.group reading))))))
  | percent operand ih =>
    obtain ⟨items, written, reading⟩ := ih
    refine ⟨lexemes operand ++ [.percent], by simp [lexemes], ?_⟩
    rw [written]
    exact .term (.factor (.unsigned (.base (.percent (.bare (.group reading))))))
  | function f argument ih =>
    obtain ⟨items, written, reading⟩ := ih
    refine ⟨_, rfl, ?_⟩
    rw [written]
    exact .term (.factor (.unsigned (.base (.bare (.call f reading)))))

theorem lexFrom_literal (finite : x.isFinite = true) {before : Option Char}
    (opens : opensOperand before = true) (position : Nat) (rest : List Char) :
    lexFrom before position .nothing (literalText x ++ ')' :: rest) =
      ([.number x, .closing] ++ ·) <$>
        lexFrom (some ')') (position + (literalText x).length + 1) .nothing rest := by
  obtain ⟨digits, value, written, literal, back⟩ := literalText_signed finite
  have known : symbol? ')' = some .closing := rfl
  rw [written, lexFrom_numeral_symbol literal.filled literal.chars (fun _ => opens) known (by decide),
    literal.numeral, back]
  rfl

private theorem lexFrom_opening (before : Option Char) (position : Nat) (rest : List Char) :
    lexFrom before position .nothing ('(' :: rest) =
      (.opening :: ·) <$> lexFrom (some '(') (position + 1) .nothing rest :=
  lexFrom_symbol rfl fun minus => absurd minus (by decide)

private theorem lexFrom_closing (before : Option Char) (position : Nat) (rest : List Char) :
    lexFrom before position .nothing (')' :: rest) =
      (.closing :: ·) <$> lexFrom (some ')') (position + 1) .nothing rest :=
  lexFrom_symbol rfl fun minus => absurd minus (by decide)

private theorem lexFrom_operator (operator : BinaryOp) (position : Nat) (rest : List Char) :
    lexFrom (some ')') position .nothing (operator.symbol :: rest) =
      (.binary operator :: ·) <$> lexFrom (some operator.symbol) (position + 1) .nothing rest := by
  apply lexFrom_symbol
  · cases operator <;> rfl
  · exact fun _ => rfl

/-- A printed tree is read as its lexemes, whatever stands before it and behind it. -/
theorem lexFrom_print (tree : Expr) (finite : ∀ x ∈ tree.literals, x.isFinite = true)
    (before : Option Char) (position : Nat) (rest : List Char) :
    ∃ final, lexFrom before position .nothing (tree.print ++ rest) =
      (lexemes tree ++ ·) <$> lexFrom (some ')') final .nothing rest := by
  induction tree generalizing before position rest with
  | literal x =>
    have read := @lexFrom_literal x (finite x (by simp [Expr.literals])) (some '(') rfl (position + 1) rest
    refine ⟨position + 1 + (literalText x).length + 1, ?_⟩
    simp only [Expr.print, List.cons_append, List.append_assoc, List.nil_append, lexFrom_opening, read,
      Functor.map_map]
    rfl
  | negate operand ih =>
    obtain ⟨final, inner⟩ := ih finite (some '-') (position + 1 + 1) (')' :: rest)
    obtain ⟨more, front⟩ := List.head?_eq_some_iff.mp (enclosed_print operand finite).front
    refine ⟨final + 1, ?_⟩
    rw [front] at inner
    simp only [Expr.print, List.cons_append, List.append_assoc, List.nil_append, lexFrom_opening, front]
      at inner ⊢
    rw [lexFrom_sign rfl, lexFrom_negate (.inl rfl) rfl, lexFrom_opening, inner, lexFrom_closing]
    simp [lexemes]
  | percent operand ih =>
    obtain ⟨final, inner⟩ := ih finite (some '(') (position + 1) ('%' :: ')' :: rest)
    have sign : lexFrom (some ')') final .nothing ('%' :: ')' :: rest) =
        (.percent :: ·) <$> lexFrom (some '%') (final + 1) .nothing (')' :: rest) :=
      lexFrom_symbol rfl fun minus => absurd minus (by decide)
    refine ⟨final + 1 + 1, ?_⟩
    simp only [Expr.print, List.cons_append, List.append_assoc, List.nil_append, lexFrom_opening, inner,
      sign, lexFrom_closing, Functor.map_map]
    simp [lexemes]
  | function f argument ih =>
    obtain ⟨more, front⟩ := List.head?_eq_some_iff.mp (enclosed_print argument finite).front
    obtain ⟨last, name⟩ := lexFrom_name f (some '(') (position + 1) (more ++ ')' :: rest)
    obtain ⟨final, inner⟩ :=
      ih finite last (position + 1 + f.name.toList.length) (')' :: rest)
    refine ⟨final + 1, ?_⟩
    rw [front, List.cons_append] at inner
    simp only [Expr.print, List.cons_append, List.append_assoc, List.nil_append,
      lexFrom_opening before, front, name, inner, lexFrom_closing, Functor.map_map]
    simp [lexemes]
  | binary operator left right ihLeft ihRight =>
    simp only [Expr.literals, List.forall_mem_append] at finite
    obtain ⟨middle, first⟩ := ihLeft finite.1 (some '(') (position + 1)
      (operator.symbol :: (right.print ++ ')' :: rest))
    obtain ⟨final, second⟩ := ihRight finite.2 (some operator.symbol) (middle + 1) (')' :: rest)
    refine ⟨final + 1, ?_⟩
    simp only [Expr.print, List.cons_append, List.append_assoc, List.nil_append, lexFrom_opening, first,
      lexFrom_operator, second, lexFrom_closing, Functor.map_map]
    simp [lexemes]

theorem level_print (tree : Expr) (finite : ∀ x ∈ tree.literals, x.isFinite = true) :
    Level tree.print := by
  induction tree with
  | literal x =>
    have plain : ∀ char ∈ numeralChars, char ≠ '(' ∧ char ≠ ')' := by decide
    exact (level_of_plain fun char member =>
      plain char (literalText_chars (finite x (by simp [Expr.literals])) char member)).group
  | negate operand ih =>
    have sign : Level ['-'] := level_of_plain (by decide)
    exact (sign.append (ih finite)).group
  | percent operand ih =>
    have sign : Level ['%'] := level_of_plain (by decide)
    simpa [Expr.print] using ((ih finite).append sign).group
  | function f argument ih =>
    have name : Level f.name.toList := level_of_plain (by cases f <;> decide)
    exact (name.append (ih finite)).group
  | binary operator left right ihLeft ihRight =>
    simp only [Expr.literals, List.forall_mem_append] at finite
    have sign : Level [operator.symbol] := level_of_plain (by cases operator <;> decide)
    simpa [Expr.print] using ((ihLeft finite.1).append (sign.append (ihRight finite.2))).group

/-- The text of a tree evaluates to the value of the tree, rounded, or fails for the cause
for which the first operation that fails does so. -/
theorem evaluate_print (config : Config) (mode : AngleMode) (tree : Expr)
    (finite : ∀ x ∈ tree.literals, x.isFinite = true)
    (fits : config.maxLength.below? (.integer tree.print.length) = some false) :
    evaluate config mode (some (String.ofList tree.print)) =
      match tree.value mode with
      | .ok value => (roundTo · value) <$> decimalScale config.roundDecimals
      | .error cause => .error (.evaluation cause (some (String.ofList tree.print))) := by
  have enclosed := enclosed_print tree finite
  obtain ⟨items, written, reading⟩ := reads_lexemes tree
  obtain ⟨final, steps⟩ := lexFrom_print tree finite none 0 []
  have read : lex (normalize tree.print) = .ok (lexemes tree) := by
    rw [List.append_nil] at steps
    rw [enclosed.normalize, lex, steps]
    simp [lexFrom, settle, Functor.map, Except.map]
  rw [written] at read
  exact evaluate_of_reads fits (List.mem_of_mem_head? enclosed.front) (by decide)
    (level_print tree finite 0) read (.term (.factor (.unsigned (.base (.bare (.group reading))))))

theorem evaluate_print_power :
    let tree := Expr.binary .add (.negate (.binary .power (.literal 2.0) (.literal 2.0)))
      (.function .sqrt (.function .abs (.literal (-6.25))))
    let failing := Expr.binary .add (.negate (.binary .power (.literal 2.0) (.literal 0.5)))
      (.function .sqrt (.percent (.literal (-8.25))))
    (∀ x ∈ tree.literals, x.isFinite = true) ∧ (∀ x ∈ failing.literals, x.isFinite = true) ∧
      String.ofList tree.print = "((-((2)^(2)))+(sqrt(abs(-6.25))))" ∧
      evaluate {} .degrees (some (String.ofList tree.print)) = .ok (-1.5) ∧
      String.ofList failing.print = "((-((2)^(0.5)))+(sqrt((-8.25)%)))" ∧
      evaluate {} .degrees (some (String.ofList failing.print)) =
        .error (.evaluation (.outsideDomain .sqrt "-0.0825") (some (String.ofList failing.print))) := by
  intro tree failing
  have finite : ∀ x ∈ tree.literals, x.isFinite = true := by decide
  have finite' : ∀ x ∈ failing.literals, x.isFinite = true := by decide
  have valued : tree.value .degrees = .ok (-1.5) := by decide +kernel
  have failed : failing.value .degrees = .error (.outsideDomain .sqrt "-0.0825") := by decide +kernel
  have run := evaluate_print {} .degrees tree finite (by decide +kernel)
  have run' := evaluate_print {} .degrees failing finite' (by decide +kernel)
  rw [valued] at run
  rw [failed] at run'
  have rounded : roundTo (Decimal.toFloat ⟨1, 8⟩) (-1.5) = -1.5 := by decide +kernel
  refine ⟨finite, finite', by decide +kernel, run.trans ?_, by decide +kernel, run'⟩
  exact congrArg Except.ok rounded

end Reckon.Proofs.PrintedTree
