import Reckon.Grammar

/-! Which rows of lexemes are sentences, told from neighbours. What is missing between two
neighbours in one place can make up for what is too much in another place, so that both
have to be counted. -/

namespace Reckon.Lexeme

def starts : Lexeme → Bool
  | number _ | opening | function _ | negate => true
  | closing | percent | binary _ => false

def ends : Lexeme → Bool
  | number _ | closing | percent => true
  | opening | function _ | negate | binary _ => false

def gain : Lexeme → Int
  | number _ => 1
  | binary _ => -1
  | _ => 0

private theorem gain_eq (lexeme : Lexeme) :
    lexeme.gain = lexeme.starts.toInt + lexeme.ends.toInt - 1 := by
  cases lexeme <;> rfl

end Reckon.Lexeme

namespace Reckon.Proofs.SentenceShape
open Grammar

/-- No operand stands against another one, where `ended` says whether one ends on the left. -/
def Apart : Bool → List Lexeme → Prop
  | _, [] => True
  | ended, item :: rest => ¬ (ended = true ∧ item.starts = true) ∧ Apart item.ends rest

def Regular : Bool → List Lexeme → Prop
  | ended, [] => ended = true
  | ended, item :: rest => item.starts = !ended ∧ Regular item.ends rest

def Nested : Nat → List Lexeme → Prop
  | depth, [] => depth = 0
  | depth, .opening :: rest => Nested (depth + 1) rest
  | depth, .closing :: rest => ∃ outer, depth = outer + 1 ∧ Nested outer rest
  | depth, _ :: rest => Nested depth rest

def Called : List Lexeme → Prop
  | [] => True
  | .function _ :: rest => rest.head? = some .opening ∧ Called rest
  | _ :: rest => Called rest

variable {items others lead operand outer : List Lexeme} {depth : Nat} {ended : Bool}

def gain : List Lexeme → Int
  | [] => 0
  | item :: rest => item.gain + gain rest

theorem gain_append (first second : List Lexeme) :
    gain (first ++ second) = gain first + gain second := by
  induction first with
  | nil => simp [gain]
  | cons item rest ih =>
    simp only [List.cons_append, gain, ih]
    omega

/-- Where no operands touch, every missing operand is a loss. -/
theorem regular_of_apart (apart : Apart ended items) :
    gain items + ended.toInt ≤ 1 ∧ (gain items + ended.toInt = 1 → Regular ended items) := by
  induction items generalizing ended with
  | nil => cases ended <;> simp [gain, Regular]
  | cons item rest ih =>
    obtain ⟨here, later⟩ := apart
    obtain ⟨bound, exact⟩ := ih later
    have sum : gain (item :: rest) = item.starts.toInt + item.ends.toInt - 1 + gain rest := by
      rw [gain, item.gain_eq]
    have pair : item.starts.toInt + ended.toInt ≤ 1 ∧
        (item.starts.toInt + ended.toInt = 1 → item.starts = !ended) := by
      revert here
      cases item.starts <;> cases ended <;> decide
    refine ⟨by omega, fun full => ⟨pair.2 (by omega), exact (by omega)⟩⟩

theorem apart_of_regular (regular : Regular ended items) : Apart ended items := by
  induction items generalizing ended with
  | nil => trivial
  | cons item rest ih =>
    obtain ⟨turn, later⟩ := regular
    refine ⟨fun ⟨left, right⟩ => ?_, ih later⟩
    rw [left, right] at turn
    cases turn

private theorem regular_append {part : Part} (derived : Derives part items)
    (regular : Regular true others) : Regular false (items ++ others) := by
  induction derived generalizing others with
  | number value => exact ⟨rfl, regular⟩
  | group _ ih =>
    rw [List.append_assoc]
    exact ⟨rfl, ih ⟨rfl, regular⟩⟩
  | call f _ ih =>
    rw [List.append_assoc]
    exact ⟨rfl, rfl, ih ⟨rfl, regular⟩⟩
  | percent _ ih =>
    rw [List.append_assoc]
    exact ih ⟨rfl, regular⟩
  | negate _ ih => exact ⟨rfl, ih regular⟩
  | join operator _ _ first second =>
    rw [List.append_assoc]
    exact first ⟨rfl, second regular⟩
  | bare _ ih | unsigned _ ih | single _ ih => exact ih regular

theorem regular_of_sentence (sentence : IsSentence items) : Regular false items := by
  have regular := @regular_append items [] _ sentence rfl
  rwa [List.append_nil] at regular

/-- What is read of a sentence when its next operand is still to come. -/
def Lead (lead : List Lexeme) : Prop :=
  ∀ operand, Derives .operand operand → Derives .sentence (lead ++ operand)

theorem Lead.nil : Lead [] :=
  fun _ derived => .single derived

theorem Lead.negate (awaits : Lead lead) : Lead (lead ++ [.negate]) := by
  intro operand derived
  rw [List.append_assoc]
  exact awaits _ (.negate derived)

theorem Lead.sentence (awaits : Lead lead) (read : Derives .suffixed operand) :
    Derives .sentence (lead ++ operand) :=
  awaits operand (.unsigned read)

theorem Lead.binary (awaits : Lead lead) (read : Derives .suffixed operand) (operator : BinaryOp) :
    Lead (lead ++ operand ++ [.binary operator]) := by
  intro other derived
  rw [List.append_assoc]
  exact .join operator (awaits.sentence read) derived

/-- What is read up to the beginning of a sentence, inside so many parentheses. -/
inductive Begins : Nat → List Lexeme → Prop
  | top : Begins 0 []
  | group {depth : Nat} {outer lead : List Lexeme} (outside : Begins depth outer)
      (awaits : Lead lead) : Begins (depth + 1) (outer ++ lead ++ [.opening])
  | call (f : Function) {depth : Nat} {outer lead : List Lexeme} (outside : Begins depth outer)
      (awaits : Lead lead) : Begins (depth + 1) (outer ++ lead ++ [.function f, .opening])

/-- Whatever was read, the rest completes it: before an operand, between a function and
its argument, and behind an operand. -/
private theorem completes (nested : Nested depth items) (called : Called items)
    (outside : Begins depth outer) (awaits : Lead lead) :
    (Regular false items → IsSentence (outer ++ lead ++ items)) ∧
      (∀ f, items.head? = some .opening → Regular false items →
        IsSentence (outer ++ lead ++ .function f :: items)) ∧
      ∀ operand, Derives .suffixed operand → Regular true items →
        IsSentence (outer ++ lead ++ operand ++ items) := by
  induction items generalizing depth outer lead with
  | nil =>
    refine ⟨fun regular => ?_, fun f opened => ?_, fun operand read _ => ?_⟩
    · cases regular
    · cases opened
    · obtain rfl : depth = 0 := nested
      cases outside
      rw [List.nil_append, List.append_nil]
      exact awaits.sentence read
  | cons item rest ih =>
    refine ⟨fun ⟨turn, regular⟩ => ?_, fun f opened ⟨_, regular⟩ => ?_,
      fun operand read ⟨turn, regular⟩ => ?_⟩
    · cases item with
      | number value => simpa using (ih nested called outside awaits).2.2 _ (.bare (.number value)) regular
      | opening => simpa using (ih nested called (.group outside awaits) .nil).1 regular
      | function f => exact (ih nested called.2 outside awaits).2.1 f called.1 regular
      | negate => simpa using (ih nested called outside awaits.negate).1 regular
      | closing | percent | binary => cases turn
    · obtain rfl : item = .opening := by simpa using opened
      simpa using (ih nested called (.call f outside awaits) .nil).1 regular
    · cases item with
      | binary operator =>
        simpa using (ih nested called outside (awaits.binary read operator)).1 regular
      | percent => simpa using (ih nested called outside awaits).2.2 _ (.percent read) regular
      | closing =>
        obtain ⟨depth, rfl, nested⟩ := nested
        have inside := awaits.sentence read
        cases outside with
        | group outside awaits =>
          simpa using (ih nested called outside awaits).2.2 _ (.bare (.group inside)) regular
        | call f outside awaits =>
          simpa using (ih nested called outside awaits).2.2 _ (.bare (.call f inside)) regular
      | number | opening | function | negate => cases turn

/-- A row in which operands take turns and parentheses match is a sentence. -/
theorem sentence_of_regular (regular : Regular false items) (nested : Nested 0 items)
    (called : Called items) : IsSentence items := by
  simpa using (completes nested called .top .nil).1 regular

end Reckon.Proofs.SentenceShape
