import Reckon.Proofs.ErrorContract
import Reckon.Proofs.LexerSteps
import Reckon.Proofs.LoweredText

/-! The case of letters does not matter. The reader lowers the words it has read and looks at no
other letter more closely, so that texts in different case have the same lexemes, or are refused
for the same cause at the same place. -/

namespace Reckon.Lexer
open Text Entry

variable {before next? : Option Char} {pending : Pending} {position : Nat} {char : Char}

def Pending.lowered : Pending → Pending
  | .word letters => .word (Entry.lowered letters)
  | other => other

private theorem isNumeralChar_toLower (char : Char) : isNumeralChar char.toLower = isNumeralChar char :=
  apply_toLower isNumeralChar (by decide) char

private theorem opensOperand_toLower (before : Option Char) :
    opensOperand (before.map Char.toLower) = opensOperand before := by
  cases before with
  | none => rfl
  | some char => exact apply_toLower (fun char => opensOperand (some char)) (by decide) char

private theorem noLetter_of_isNumeralChar (numeral : isNumeralChar char = true) : isLetter char = false := by
  simp only [isNumeralChar, Bool.or_eq_true, beq_iff_eq] at numeral
  rcases numeral with digit | rfl
  · exact isLetter_of_digit (isDigit_of_ascii digit)
  · decide

private theorem lower_lowered (letters : List Char) : Text.lower (lowered letters) = Text.lower letters := by
  have twice : Char.toLower ∘ Char.toLower = Char.toLower := funext toLower_toLower
  rw [Text.lower, lowered, List.map_map, twice, Text.lower]

private theorem settle_lowered (pending : Pending) (next? : Option Char) (position : Nat) :
    settle pending.lowered (next?.map Char.toLower) position = settle pending next? position := by
  have opening (char : Char) : char.toLower = '(' ↔ char = '(' := toLower_eq_iff (by decide)
  cases pending with
  | nothing | numeral => rfl
  | sign =>
    cases next? with
    | none => rfl
    | some char => simp only [Pending.lowered, settle, Option.map_some, opening, isLetter_toLower]
  | word letters =>
    have opens : next?.map Char.toLower = some '(' ↔ next? = some '(' := by
      cases next? <;> simp [opening]
    simp only [Pending.lowered, settle, word, lower_lowered, opens]

private theorem extend?_lowered (before : Option Char) (pending : Pending) (char : Char) :
    extend? (before.map Char.toLower) pending.lowered char.toLower =
      (extend? before pending char).map Pending.lowered := by
  have minus : char.toLower = '-' ↔ char = '-' := toLower_eq_iff (by decide)
  cases numeral : isNumeralChar char with
  | true =>
    rw [toLower_of_noLetter (noLetter_of_isNumeralChar numeral)]
    cases pending <;> simp [Pending.lowered, extend?, numeral, noLetter_of_isNumeralChar numeral]
  | false =>
    cases pending with
    | nothing | numeral => simp [Pending.lowered, extend?, isNumeralChar_toLower, numeral]
    | sign =>
      simp only [Pending.lowered, extend?, isNumeralChar_toLower, numeral, minus,
        opensOperand_toLower, Bool.false_eq_true, if_false]
      split <;> rfl
    | word letters =>
      simp only [Pending.lowered, extend?, isLetter_toLower]
      split_ifs
      · simp [Pending.lowered, lowered]
      · rfl

private theorem symbol?_toLower (char : Char) : symbol? char.toLower = symbol? char := by
  have none {char : Char} (letter : isLetter char = true) : symbol? char = none := by
    rw [Option.eq_none_iff_forall_ne_some]
    intro lexeme known
    rw [(symbol_of_symbol? known).2] at letter
    cases letter
  rcases toLower_cases char with same | capital
  · rw [same]
  · obtain ⟨letter, small⟩ := letter_of_capital capital
    rw [none letter, none small]

private theorem start_lowered (before : Option Char) (char : Char) (position : Nat) :
    start (before.map Char.toLower) char.toLower position =
      (fun begun => (begun.1, begun.2.lowered)) <$> start before char position := by
  have minus : char.toLower = '-' ↔ char = '-' := toLower_eq_iff (by decide)
  simp only [start, minus, opensOperand_toLower, isLetter_toLower, symbol?_toLower]
  split
  · rfl
  cases letter : isLetter char with
  | true => rfl
  | false =>
    rw [toLower_of_noLetter letter]
    cases symbol? char <;> rfl

private theorem lexFrom_lowered (before : Option Char) (position : Nat) (pending : Pending)
    (text : List Char) :
    lexFrom (before.map Char.toLower) position pending.lowered (lowered text) =
      lexFrom before position pending text := by
  -- A word that was begun in one case goes on in the other, so the beginning is lowered as well.
  induction text generalizing before position pending with
  | nil => exact settle_lowered pending none position
  | cons char rest ih =>
    have begun : lowered (char :: rest) = char.toLower :: lowered rest := rfl
    rw [begun, lexFrom, lexFrom, extend?_lowered]
    cases extend? before pending char with
    | some grown => exact ih (some char) (position + 1) grown
    | none =>
      have settled := settle_lowered pending (some char) position
      rw [Option.map_some] at settled
      simp only [Option.map_none, settled, start_lowered]
      cases settle pending (some char) position with
      | error cause => rfl
      | ok first =>
        cases start before char position with
        | error cause => rfl
        | ok next =>
          obtain ⟨finished, begun⟩ := next
          have later := ih (some char) (position + 1) begun
          rw [Option.map_some] at later
          simp only [Functor.map, Except.map, bind, Except.bind, later]

end Reckon.Lexer

namespace Reckon.Proofs.LetterCase
open Entry Lexer ErrorContract

private theorem lex_lowered (text : List Char) : lex (lowered text) = lex text :=
  lexFrom_lowered none 0 .nothing text

private theorem compute_lowered (mode : AngleMode) (text : List Char) :
    compute mode (lowered text) = compute mode text := by
  rw [compute, normalize_lowered, lex_lowered, compute]

private theorem openAfter_lowered (depth : Nat) (text : List Char) :
    openAfter depth (lowered text) = openAfter depth text := by
  fun_induction openAfter depth text with
  | case1 | case3 => rfl
  | case2 depth rest ih | case4 depth rest ih => exact ih
  | case5 depth char rest noOpening noClosing noClosing' ih =>
    have opening : char.toLower = '(' ↔ char = '(' := Text.toLower_eq_iff (by decide)
    have closing : char.toLower = ')' ↔ char = ')' := Text.toLower_eq_iff (by decide)
    have begun : lowered (char :: rest) = char.toLower :: lowered rest := rfl
    rw [begun, openAfter, ih]
    · exact fun same => noOpening (opening.mp same)
    · exact fun empty same => noClosing empty (closing.mp same)
    · exact fun depth _ same => noClosing' depth ‹_› (closing.mp same)

private theorem isBalanced_lowered (text : List Char) : isBalanced (lowered text) = isBalanced text := by
  rw [isBalanced, openAfter_lowered, isBalanced]

variable {first second : String}

/-- The same character, or the same letter of the English alphabet in another case: one is the
small letter of the other. -/
def Recased (char other : Char) : Prop :=
  other = char ∨ other = char.toLower ∨ char = other.toLower

private theorem lowered_recased {left right : List Char} (same : List.Forall₂ Recased left right) :
    lowered right = lowered left := by
  induction same with
  | nil => rfl
  | cons recased later ih =>
    refine congrArg₂ List.cons ?_ ih
    rcases recased with rfl | rfl | rfl
    · rfl
    · exact Text.toLower_toLower _
    · exact (Text.toLower_toLower _).symm

private theorem allBlank_eq (text : String) : Text.allBlank text = (lowered text.toList).all Text.isBlank := by
  rw [Text.allBlank, lowered, List.all_map]
  congr 1
  exact (funext Text.isBlank_toLower).symm

private theorem entered_recased (same : List.Forall₂ Recased first.toList second.toList) :
    lowered (enteredText (some second)).toList = lowered (enteredText (some first)).toList := by
  have small := lowered_recased same
  have blank : Text.allBlank second = Text.allBlank first := by
    rw [allBlank_eq, allBlank_eq, small]
  simp only [enteredText, blank]
  split
  · rfl
  · exact small

/-- What does not see the case of letters finds the same in both texts. -/
theorem apply_recased {α : Type} {f : List Char → α} (blind : ∀ text, f (lowered text) = f text)
    (same : List.Forall₂ Recased first.toList second.toList) :
    f (enteredText (some second)).toList = f (enteredText (some first)).toList := by
  rw [← blind, entered_recased same, blind]

def Recordless (failure : Failure) : Prop :=
  ∀ text, failure.inExpression text = failure

private theorem ofInteger_failsOnly (value : Int) : FailsOnly Recordless (Datum.ofInteger value) := by
  unfold Datum.ofInteger
  dsimp only
  split
  · exact .error fun _ => rfl
  · exact .ok _

private theorem powerOfTenScale_failsOnly (exponent : Float) :
    FailsOnly Recordless (powerOfTenScale exponent) := by
  unfold powerOfTenScale
  dsimp only
  split
  · exact .error fun _ => rfl
  · exact .ok _

private theorem decimalScale_failsOnly (places : Datum) : FailsOnly Recordless (decimalScale places) := by
  cases places with
  | real value | flag value => exact powerOfTenScale_failsOnly _
  | text | missing => exact .error fun _ => rfl
  | integer value =>
    rw [decimalScale]
    split
    · exact .ok _
    · exact (ofInteger_failsOnly value).bind fun exponent _ => powerOfTenScale_failsOnly exponent

/-- The case of letters decides nothing: the text in other case has the same value, or it fails for
the same cause, and only the text that the failure records is another. -/
theorem evaluate_recased {config : Config} {mode : AngleMode} {first second : String}
    (same : List.Forall₂ Recased first.toList second.toList) :
    evaluate config mode (some second) = (evaluate config mode (some first)).mapError
      (Failure.inExpression (enteredText (some second))) := by
  have length := apply_recased (fun text => List.length_map Char.toLower) same
  have balanced := apply_recased isBalanced_lowered same
  have computed := apply_recased (compute_lowered mode) same
  rw [String.length_toList, String.length_toList] at length
  rw [evaluate, evaluate, length, balanced, computed]
  cases config.maxLength.below? (.integer (enteredText (some first)).length) with
  | none => rfl
  | some long =>
    cases long with
    | true =>
      by_cases writable : config.maxLength.Writable
      · obtain ⟨limit, written⟩ := Datum.exists_plain writable
        rw [written]
        rfl
      · rw [Datum.plain_of_not_writable writable]
        rfl
    | false =>
      cases isBalanced (enteredText (some first)).toList with
      | false => rfl
      | true =>
        cases compute mode (enteredText (some first)).toList with
        | error failure => cases failure <;> rfl
        | ok value =>
          cases scaled : decimalScale config.roundDecimals with
          | ok scale => rfl
          | error failure =>
            have recordless := decimalScale_failsOnly _ failure scaled
            exact congrArg Except.error (recordless _).symm

theorem evaluate_recased_words :
    List.Forall₂ Recased "sin(30)+2pi".toList "SIN(30)+2Pi".toList ∧
      (∃ value, evaluate {} .degrees (some "sin(30)+2pi") = .ok value ∧
        evaluate {} .degrees (some "SIN(30)+2Pi") = .ok value) := by
  have same : List.Forall₂ Recased "sin(30)+2pi".toList "SIN(30)+2Pi".toList := by
    simp [List.forall₂_cons, Recased]
  have computed : (evaluate {} .degrees (some "sin(30)+2pi")).toOption.isSome = true := by
    decide +kernel
  have recased := @evaluate_recased {} .degrees _ _ same
  refine ⟨same, ?_⟩
  cases outcome : evaluate {} .degrees (some "sin(30)+2pi") with
  | error failure =>
    rw [outcome] at computed
    cases computed
  | ok value =>
    rw [outcome] at recased
    exact ⟨value, rfl, recased⟩

end Reckon.Proofs.LetterCase
