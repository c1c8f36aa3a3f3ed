import Reckon.Evaluation
import Reckon.Proofs.ReachedValue

/-! Putting a row of lexemes in order in parts. What a part leaves waiting decides how the
next part goes on, and a part in the middle may be replaced by one with the same effect. -/

namespace Reckon.Proofs.Arranging
open Polish

def Awaits (lexeme : Lexeme) : Prop :=
  lexeme = .opening ∨ ∃ operator, lexeme = .binary operator

variable {mode : AngleMode} {item : Lexeme} {stack items rest first second : List Lexeme}

private theorem map_append {outcome : Except Cause (List Lexeme)} (sent sent' : List Lexeme) :
    (sent ++ ·) <$> (sent' ++ ·) <$> outcome = (sent ++ sent' ++ ·) <$> outcome := by
  cases outcome <;> simp [Functor.map, Except.map]

private theorem map_nil {outcome : Except Cause (List Lexeme)} : ([] ++ ·) <$> outcome = outcome := by
  cases outcome <;> rfl

/-- What one lexeme makes leave and what it keeps waiting depends on no later one. -/
theorem arrange_step (stack : List Lexeme) (item : Lexeme) :
    (∃ cause, ∀ rest, arrange Lexeme.role stack (item :: rest) = .error cause) ∨
      ∃ sent waiting, (∀ rest, arrange Lexeme.role stack (item :: rest) =
        (sent ++ ·) <$> arrange Lexeme.role waiting rest) ∧
        (Awaits item → waiting.head? = some item) := by
  cases item with
  | number value => exact .inr ⟨[.number value], stack, fun rest => rfl, by simp [Awaits]⟩
  | percent => exact .inr ⟨[.percent], stack, fun rest => rfl, by simp [Awaits]⟩
  | opening => exact .inr ⟨[], _, fun rest => map_nil.symm, fun _ => rfl⟩
  | negate => exact .inr ⟨[], _, fun rest => map_nil.symm, fun _ => rfl⟩
  | function f => exact .inr ⟨[], _, fun rest => map_nil.symm, fun _ => rfl⟩
  | binary operator => exact .inr ⟨_, _, fun rest => rfl, fun _ => rfl⟩
  | closing =>
    cases closes : close? Lexeme.role stack with
    | none =>
      refine .inl ⟨.unmatchedClosing, fun rest => ?_⟩
      simp only [arrange, Lexeme.role, closes]
    | some found =>
      obtain ⟨leaving, waiting⟩ := found
      refine .inr ⟨leaving, waiting, fun rest => ?_, by simp [Awaits]⟩
      simp only [arrange, Lexeme.role, closes]

private theorem arrange_append (awaits : ∀ last ∈ items.getLast?, Awaits last) (stack : List Lexeme) :
    (∃ cause, ∀ rest, arrange Lexeme.role stack (items ++ rest) = .error cause) ∨
      ∃ sent waiting, (∀ rest, arrange Lexeme.role stack (items ++ rest) =
        (sent ++ ·) <$> arrange Lexeme.role waiting rest) ∧
        waiting.head? = items.getLast?.or stack.head? := by
  induction items generalizing stack with
  | nil => exact .inr ⟨[], stack, fun rest => map_nil.symm, rfl⟩
  | cons item items ih =>
    rcases arrange_step stack item with ⟨cause, failed⟩ | ⟨sent, waiting, arranged, top⟩
    · exact .inl ⟨cause, fun rest => failed _⟩
    · have awaits' : ∀ last ∈ items.getLast?, Awaits last := by
        intro last final
        apply awaits
        rw [List.getLast?_cons, Option.mem_def.mp final]
        rfl
      rcases ih awaits' waiting with ⟨cause, failed⟩ | ⟨sent', waiting', arranged', top'⟩
      · refine .inl ⟨cause, fun rest => ?_⟩
        rw [List.cons_append, arranged, failed]
        rfl
      · refine .inr ⟨sent ++ sent', waiting', fun rest => ?_, ?_⟩
        · rw [List.cons_append, arranged, arranged', map_append]
        · rw [top', List.getLast?_cons]
          cases known : items.getLast? with
          | some last => rfl
          | none =>
            rw [Option.none_or]
            exact top (awaits item (by simp [List.getLast?_cons, known]))

/-- A waiting operator leaves first where the row ends, where parentheses close, and where
an operator follows that does not bind tighter. -/
theorem arrange_leaves (noOpening : isOpening Lexeme.role item = false)
    (leaves : ∀ next ∈ rest.head?, next = .closing ∨
      ∃ operator, next = .binary operator ∧ actsBefore Lexeme.role operator.level item = true) :
    arrange Lexeme.role (item :: stack) rest = (item :: ·) <$> arrange Lexeme.role stack rest := by
  cases rest with
  | nil =>
    simp only [arrange, List.any_cons, noOpening, Bool.false_or]
    split <;> rfl
  | cons next rest =>
    rcases leaves next rfl with rfl | ⟨operator, rfl, acts⟩
    · have taken : close? Lexeme.role (item :: stack) =
          (close? Lexeme.role stack).map (Prod.map (item :: ·) id) := by
        simp only [close?, List.takeWhile_cons, List.dropWhile_cons, noOpening, Bool.not_false, if_true]
        split
        · rfl
        · rfl
        · split <;> rfl
      simp only [arrange, Lexeme.role, taken]
      cases close? Lexeme.role stack with
      | none => rfl
      | some found =>
        obtain ⟨leaving, waiting⟩ := found
        simp only [Option.map_some, Prod.map, id]
        cases arrange Lexeme.role waiting rest <;> rfl
    · simp only [arrange, Lexeme.role, List.takeWhile_cons, List.dropWhile_cons, acts, if_true]
      cases arrange Lexeme.role (.binary operator ::
        stack.dropWhile (actsBefore Lexeme.role operator.level)) rest <;> rfl

def carryOut (mode : AngleMode) (items : List Lexeme) : Except Failure Float :=
  liftCause (reorder Lexeme.role items) >>= Machine.run (Lexeme.action mode)

/-- The value of a text that the reader can take as it is. -/
def execute (mode : AngleMode) (text : List Char) : Except Failure Float :=
  liftCause (lex text) >>= carryOut mode

theorem compute_eq_execute (mode : AngleMode) (text : List Char) :
    compute mode text = execute mode (Entry.normalize text) := rfl

/-- Two rows in reverse order take every stack to the same stack, or fail alike. -/
def SameEffect (mode : AngleMode) (first second : List Lexeme) : Prop :=
  ∀ stack, Machine.runFrom (Lexeme.action mode) stack first =
    Machine.runFrom (Lexeme.action mode) stack second

/-- A part that leaves as a whole before what follows it is looked at. -/
def Sends (stack part rest sent : List Lexeme) : Prop :=
  arrange Lexeme.role stack (part ++ rest) = (sent ++ ·) <$> arrange Lexeme.role stack rest

/-- A part that keeps an operator waiting leaves with it, if nothing that follows binds tighter. -/
theorem sends_waiting {least brings : Rat} {part sent : List Lexeme}
    (leaves : Precedence.Leaves least brings part sent [item]) (clear : Clear Lexeme.role brings stack)
    (follows : ∀ next ∈ rest.head?, next = .closing ∨
      ∃ operator, next = .binary operator ∧ actsBefore Lexeme.role operator.level item = true) :
    Sends stack part rest (sent ++ [item]) := by
  have noOpening : isOpening Lexeme.role item = false := leaves.noOpening item (List.mem_singleton_self item)
  unfold Sends
  rw [leaves.arranged stack rest clear, List.singleton_append, arrange_leaves noOpening follows]
  exact map_append sent [item]

/-- Parts with the same effect may replace each other. -/
theorem carryOut_middle (awaits : ∀ last ∈ items.getLast?, Awaits last)
    (same : ∀ stack : List Lexeme, stack.head? = items.getLast? → ∃ sent sent',
      Sends stack first rest sent ∧ Sends stack second rest sent' ∧ SameEffect mode sent sent') :
    carryOut mode (items ++ (first ++ rest)) = carryOut mode (items ++ (second ++ rest)) := by
  unfold carryOut reorder
  rcases arrange_append awaits [] with ⟨cause, failed⟩ | ⟨sent, waiting, arranged, top⟩
  · rw [failed, failed]
  · obtain ⟨part, part', sends, sends', effect⟩ := same waiting (by simpa using top)
    rw [arranged, arranged, sends, sends', map_append, map_append]
    cases arrange Lexeme.role waiting rest with
    | error cause => rfl
    | ok later =>
      show Machine.run _ (sent ++ part ++ later) = Machine.run _ (sent ++ part' ++ later)
      unfold Machine.run
      simp only [Machine.runFrom_append]
      cases Machine.runFrom (Lexeme.action mode) [] sent with
      | error failure => rfl
      | ok stack =>
        simp only [bind, Except.bind]
        rw [effect stack]

end Reckon.Proofs.Arranging
