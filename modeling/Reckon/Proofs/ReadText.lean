import Reckon.Evaluation
import Reckon.Proofs.Precedence

/-! From a text to its value: a balanced text whose lexemes have a reading evaluates to
the value of the tree it is read as. -/

namespace Reckon.Proofs.ReadText
open Entry Grammar

def Level (text : List Char) : Prop :=
  ∀ depth, openAfter depth text = some depth

variable {first second text : List Char}

theorem level_of_plain (plain : ∀ char ∈ text, char ≠ '(' ∧ char ≠ ')') :
    Level text := by
  intro depth
  induction text with
  | nil => rfl
  | cons char rest ih =>
    rw [List.forall_mem_cons] at plain
    have step : openAfter depth (char :: rest) = openAfter depth rest :=
      openAfter.eq_5 _ _ _ plain.1.1 (fun _ closing => plain.1.2 closing)
        fun _ _ closing => plain.1.2 closing
    rw [step, ih plain.2]

theorem Level.append (level : Level first) (level' : Level second) : Level (first ++ second) := by
  intro depth
  rw [openAfter_append, level depth]
  exact level' depth

theorem Level.group (level : Level first) : Level ('(' :: first ++ [')']) := by
  intro depth
  rw [List.cons_append, openAfter, openAfter_append, level (depth + 1)]
  rfl

variable {config : Config} {mode : AngleMode} {items : List Lexeme} {tree : Expr} {char : Char}

/-- The answer for a text: the value, rounded, or the cause with the text named. -/
def answer (config : Config) (text : List Char) : Except Cause Float → Except Failure Float
  | .ok value => (roundTo · value) <$> decimalScale config.roundDecimals
  | .error cause => .error (.evaluation cause (some (String.ofList text)))

theorem enteredText_of_visible (member : char ∈ text) (visible : Text.isBlank char = false) :
    enteredText (some (String.ofList text)) = String.ofList text := by
  have some : (String.ofList text).toList.all Text.isBlank = false := by
    rw [String.toList_ofList, List.all_eq_false]
    exact ⟨char, member, by simp [visible]⟩
  simp only [enteredText, Text.allBlank, some, Bool.false_eq_true, if_false]

/-- The value of a text is the value of its tree. -/
theorem evaluate_of_reads (fits : config.maxLength.below? (.integer text.length) = some false)
    (member : char ∈ text) (visible : Text.isBlank char = false)
    (balanced : openAfter 0 text = some 0) (read : lex (normalize text) = .ok items)
    (reading : Reads .sum items tree) :
    evaluate config mode (some (String.ofList text)) = answer config text (tree.value mode) := by
  have computed : compute mode text = liftCause (tree.value mode) := by
    rw [compute, read]
    exact Precedence.run_of_reads mode reading
  rw [evaluate, enteredText_of_visible member visible]
  simp only [String.length_ofList, fits, String.toList_ofList, isBalanced, balanced, computed]
  cases tree.value mode with
  | error cause => rfl
  | ok value =>
    rw [answer]
    cases decimalScale config.roundDecimals <;> rfl

end Reckon.Proofs.ReadText
