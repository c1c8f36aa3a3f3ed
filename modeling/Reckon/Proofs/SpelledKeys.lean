import Reckon.Proofs.PowerSign
import Reckon.Proofs.PrintedTree
import Reckon.Proofs.WrittenNumber
import Reckon.QuickFunction

/-! Keys that can be spelled. What a key makes of a number is what the expression language makes
of the literal in parentheses, with a name, a sign or a percent sign beside it. -/

namespace Reckon.Proofs.SpelledKeys
open Entry Grammar Lexer LiteralReading NumeralText PowerSign PrintedTree ReadText SettledText
open WrittenNumber

structure Surrounds (front back : List Char) (leading trailing : List Lexeme) : Prop where
  kept : (∀ char ∈ front, Kept char) ∧ ∀ char ∈ back, Kept char
  chain : front.IsChain Inert ∧ back.IsChain Inert
  opens : ∀ last ∈ front.getLast?, Inert last '('
  closes : ∀ next ∈ back.head?, Inert ')' next
  prepared : prepare back = back
  level : Level front ∧ Level back
  short : front.length + back.length ≤ 30
  ahead : ∀ rest, ∃ before position, lexFrom none 0 .nothing (front ++ '(' :: rest) =
    (leading ++ ·) <$> lexFrom before position .nothing ('(' :: rest)
  behind : ∀ position, lexFrom (some ')') position .nothing back = .ok trailing

variable {front back : List Char} {leading trailing : List Lexeme} {x : Float} {mode : AngleMode}
  {tree : Expr}

def surrounded (front back : List Char) (x : Float) : List Char :=
  front ++ (Expr.literal x).print ++ back

private theorem append_literal {ahead behind : String} (opened : ahead.toList = front ++ ['('])
    (closed : behind.toList = ')' :: back) :
    ahead ++ literal x ++ behind = String.ofList (surrounded front back x) := by
  apply String.toList_inj.mp
  simp [surrounded, Expr.print, literal, opened, closed]

theorem Surrounds.normalize (surrounds : Surrounds front back leading trailing)
    (finite : x.isFinite = true) :
    Entry.normalize (surrounded front back x) = surrounded front back x := by
  have enclosed := enclosed_print (.literal x) (by simpa [Expr.literals] using finite)
  obtain ⟨kept, kept'⟩ := surrounds.kept
  obtain ⟨chain, chain'⟩ := surrounds.chain
  have first : (front ++ (Expr.literal x).print).IsChain Inert := by
    refine List.isChain_append.mpr ⟨chain, enclosed.chain, fun last found next head => ?_⟩
    obtain rfl : '(' = next := by simpa [enclosed.front] using head
    exact surrounds.opens last found
  have closed : (front ++ (Expr.literal x).print).getLast? = some ')' := by
    rw [List.getLast?_append, enclosed.back]
    rfl
  have whole : (surrounded front back x).IsChain Inert := by
    refine List.isChain_append.mpr ⟨first, chain', fun last found next head => ?_⟩
    obtain rfl : ')' = last := by simpa [closed] using found
    exact surrounds.closes next head
  have free : EndsFree (front ++ (Expr.literal x).print) := by
    intro last found
    obtain rfl : ')' = last := by simpa [closed] using found
    decide
  have same : prepare (surrounded front back x) = surrounded front back x := by
    rw [surrounded, prepare_append (List.forall_mem_append.mpr ⟨kept, enclosed.kept⟩)
      (first.imp fun _ _ => And.left) free, surrounds.prepared]
  rw [Entry.normalize, same, foldPowers, substitute,
    substituteFrom_powers none (whole.imp fun _ _ => And.right),
    complete_eq_self (whole.imp fun _ _ => And.left)]

theorem Surrounds.lex (surrounds : Surrounds front back leading trailing)
    (finite : x.isFinite = true) :
    Reckon.lex (surrounded front back x) =
      .ok (leading ++ [.opening, .number x, .closing] ++ trailing) := by
  obtain ⟨before, position, ahead⟩ := surrounds.ahead (literalText x ++ ')' :: back)
  obtain ⟨final, steps⟩ := lexFrom_print (.literal x) (by simpa [Expr.literals] using finite) before
    position back
  have parts : surrounded front back x = front ++ '(' :: (literalText x ++ ')' :: back) := by
    simp [surrounded, Expr.print]
  have parts' : (Expr.literal x).print ++ back = '(' :: (literalText x ++ ')' :: back) := by
    simp [Expr.print]
  rw [parts', surrounds.behind] at steps
  rw [Reckon.lex, parts, ahead, steps, List.append_assoc]
  rfl

theorem Surrounds.evaluate (surrounds : Surrounds front back leading trailing)
    (reading : Reads .sum (leading ++ [.opening, .number x, .closing] ++ trailing) tree)
    (finite : x.isFinite = true) (mode : AngleMode) :
    Reckon.evaluate {} mode (some (String.ofList (surrounded front back x))) =
      answer {} (surrounded front back x) (tree.value mode) := by
  have short := surrounds.short
  have length := length_literalText_le finite
  have fits := @length_fits (surrounded front back x) (by simp [surrounded, Expr.print]; omega)
  have level : Level (surrounded front back x) :=
    (surrounds.level.1.append (level_print _ (by simpa [Expr.literals] using finite))).append
      surrounds.level.2
  have member : '(' ∈ surrounded front back x := by simp [surrounded, Expr.print]
  have read := (surrounds.normalize finite).symm ▸ surrounds.lex finite
  exact evaluate_of_reads fits member (by decide) (level 0) read reading

private theorem surrounds_name (f : Function) : Surrounds f.name.toList [] [.function f] [] := by
  obtain ⟨kept, chain, -, opens, -⟩ := inert_name f
  refine ⟨⟨kept, nofun⟩, ⟨chain, .nil⟩, opens, nofun, rfl, ⟨?_, fun _ => rfl⟩, ?_, fun rest => ?_,
    fun _ => rfl⟩
  · exact level_of_plain (by cases f <;> decide)
  · cases f <;> decide
  · obtain ⟨last, name⟩ := lexFrom_name f none 0 rest
    exact ⟨last, _, name⟩

private theorem surrounds_percent : Surrounds [] ['%'] [] [.percent] := by
  refine ⟨⟨nofun, by decide⟩, ⟨.nil, .singleton _⟩, nofun, by decide, by decide,
    ⟨fun _ => rfl, level_of_plain (by decide)⟩, by decide, fun rest => ⟨none, 0, ?_⟩, fun position => ?_⟩
  · simp
  · rfl

private theorem surrounds_minus : Surrounds ['-'] [] [.negate] [] := by
  refine ⟨⟨by decide, nofun⟩, ⟨.singleton _, .nil⟩, by decide, nofun, rfl,
    ⟨level_of_plain (by decide), fun _ => rfl⟩, by decide, fun rest => ⟨some '-', 1, ?_⟩, fun _ => rfl⟩
  exact (lexFrom_sign rfl).trans (lexFrom_negate (.inl rfl) rfl)

private theorem surrounds_quotient :
    Surrounds ['1', '/'] [] [.number 1.0, .binary .divide] [] := by
  refine ⟨⟨by decide, nofun⟩, ⟨by decide, .nil⟩, by decide, nofun, rfl,
    ⟨level_of_plain (by decide), fun _ => rfl⟩, by decide, fun rest => ⟨some '/', 2, ?_⟩, fun _ => rfl⟩
  have one : IsLiteral ['1'] 1.0 := ⟨by decide, by decide +kernel⟩
  have known : symbol? '/' = some (.binary .divide) := rfl
  have steps := @lexFrom_numeral_symbol none 0 '/' (.binary .divide) ('(' :: rest) ['1'] false
    one.filled one.chars nofun known (by decide)
  rw [one.numeral] at steps
  exact steps

private theorem sameAnswer_map {first second : Except Failure Float} (f : Float → Float)
    (same : SameAnswer first second) : SameAnswer (f <$> first) (f <$> second) := by
  have inside (outcome : Except Failure Float) :
      (f <$> outcome).mapError shape = f <$> outcome.mapError shape := by
    cases outcome <;> rfl
  rw [SameAnswer, inside, inside, same]

/-- A key has the answer of a text whose operation has the same value or the same kind of cause. -/
theorem sameAnswer_key {quick : QuickFunction} {text : List Char} {outcome : Except Cause Float}
    (same : SameAnswer (quick.value {} mode x) (liftCause outcome)) :
    SameAnswer (QuickFunction.applyNamed {} mode quick.name (.real x)) (answer {} text outcome) := by
  have pressed : QuickFunction.applyNamed {} mode quick.name (.real x) =
      roundTo resultScale <$> quick.value {} mode x := by
    rw [QuickFunction.applyNamed, QuickFunction.named?_name]
    rfl
  have answered : SameAnswer (roundTo resultScale <$> liftCause outcome) (answer {} text outcome) := by
    cases outcome with
    | error cause => rfl
    | ok value =>
      rw [answer, decimalScale_default]
      rfl
  rw [pressed]
  exact (sameAnswer_map _ same).trans answered

/-- Nothing is divided by zero, whether a key or a text demands it. -/
theorem sameAnswer_inverse (x : Float) :
    SameAnswer (QuickFunction.inverse.value {} mode x)
      (liftCause ((Expr.binary .divide (.literal 1.0) (.literal x)).value mode)) := by
  have divided : (Expr.binary .divide (.literal 1.0) (.literal x)).value mode =
      BinaryOp.divide.apply 1.0 x := rfl
  rw [divided, QuickFunction.value, BinaryOp.apply]
  by_cases zero : (x == 0.0) = true
  · rw [if_pos zero, if_pos (by exact zero)]
    rfl
  · rw [if_neg zero, if_neg (by exact zero)]
    rfl

/-- Each function of the expression language, the percent sign, the minus and the division of one
do to a finite number what the keys of their names do: they give the same double or fail for a
cause of the same kind. -/
theorem key_as_spelled {x : Float} (finite : x.isFinite = true) (mode : AngleMode) :
    (∀ f : Function, SameAnswer (QuickFunction.applyNamed {} mode f.name (.real x))
      (evaluate {} mode (some (f.name ++ "(" ++ literal x ++ ")")))) ∧
    SameAnswer (QuickFunction.applyNamed {} mode "percent" (.real x))
      (evaluate {} mode (some ("(" ++ literal x ++ ")%"))) ∧
    SameAnswer (QuickFunction.applyNamed {} mode "negate" (.real x))
      (evaluate {} mode (some ("-(" ++ literal x ++ ")"))) ∧
    SameAnswer (QuickFunction.applyNamed {} mode "inverse" (.real x))
      (evaluate {} mode (some ("1/(" ++ literal x ++ ")"))) := by
  have group : Reads .suffixed [.opening, .number x, .closing] (.literal x) :=
    .bare (.group (reads_literal x))
  refine ⟨fun f => ?_, ?_, ?_, ?_⟩
  · have reading : Reads .sum [.function f, .opening, .number x, .closing] (.function f (.literal x)) :=
      .term (.factor (.unsigned (.base (.bare (.call f (reads_literal x))))))
    rw [@append_literal f.name.toList [] x _ _ (by simp) rfl, (surrounds_name f).evaluate reading finite]
    exact @sameAnswer_key _ _ (.function f) _ _ rfl
  · have reading : Reads .sum [.opening, .number x, .closing, .percent] (.percent (.literal x)) :=
      .term (.factor (.unsigned (.base (.percent group))))
    rw [@append_literal [] ['%'] x _ _ rfl rfl, surrounds_percent.evaluate reading finite]
    exact @sameAnswer_key _ _ .percent _ _ rfl
  · have reading : Reads .sum [.negate, .opening, .number x, .closing] (.negate (.literal x)) :=
      .term (.factor (.negate (.unsigned (.base group))))
    rw [@append_literal ['-'] [] x _ _ rfl rfl, surrounds_minus.evaluate reading finite]
    exact @sameAnswer_key _ _ .negate _ _ rfl
  · have reading : Reads .sum [.number 1.0, .binary .divide, .opening, .number x, .closing]
        (.binary .divide (.literal 1.0) (.literal x)) :=
      .term (.product .divide rfl (.factor (.unsigned (.base (.bare (.number 1.0)))))
        (.unsigned (.base group)))
    rw [@append_literal ['1', '/'] [] x _ _ rfl rfl, surrounds_quotient.evaluate reading finite]
    exact sameAnswer_key (sameAnswer_inverse x)

theorem key_as_spelled_zero :
    (-0.0 : Float).isFinite = true ∧
      SameAnswer (QuickFunction.applyNamed {} .degrees "ln" (.real (-0.0)))
        (evaluate {} .degrees (some "ln(-0)")) ∧
      SameAnswer (QuickFunction.applyNamed {} .degrees "inverse" (.real (-0.0)))
        (evaluate {} .degrees (some "1/(-0)")) ∧
      QuickFunction.applyNamed {} .degrees "inverse" (.real (-0.0)) =
        .error (.ofCause .inverseOfZero) := by
  have finite : (-0.0 : Float).isFinite = true := by decide +kernel
  have text : literal (-0.0) = "-0" := by decide +kernel
  have zero : ((-0.0 : Float) == 0.0) = true := by decide +kernel
  obtain ⟨functions, -, -, inverse⟩ := key_as_spelled finite .degrees
  have logarithm := functions .ln
  rw [text] at logarithm inverse
  refine ⟨finite, logarithm, inverse, ?_⟩
  have named : QuickFunction.named? "inverse" = some .inverse := QuickFunction.named?_name .inverse
  rw [QuickFunction.applyNamed, named]
  simp [Datum.toGivenNumber, Datum.toNumber, QuickFunction.apply, QuickFunction.value, zero, bind,
    Except.bind, Functor.map, Except.map]

end Reckon.Proofs.SpelledKeys
