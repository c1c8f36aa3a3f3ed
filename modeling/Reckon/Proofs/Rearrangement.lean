import Reckon.Proofs.ErrorContract

/-! Putting a row in order moves its items and does nothing else to them. Only parentheses are
dropped, and a row is refused only for those that do not match. -/

namespace Reckon.Lexeme

def isParenthesis : Lexeme → Bool
  | opening | closing => true
  | _ => false

/-- Leaves as soon as it comes, so that nothing overtakes it. -/
def isInstant : Lexeme → Bool
  | number _ | percent => true
  | _ => false

def turn : Lexeme → Int
  | opening => 1
  | closing => -1
  | _ => 0

end Reckon.Lexeme

namespace Reckon.Proofs.Rearrangement
open ErrorContract KeptParentheses Lexer Polish ReachedValue SentenceShape

def counter (items : List Lexeme) : Int :=
  (items.map Lexeme.turn).sum

/-- The count falls below zero on the way, or is not zero in the end. -/
def Unmatched (items : List Lexeme) : Prop :=
  (∃ front, front <+: items ∧ counter front < 0) ∨ counter items ≠ 0

structure Matched (depth : Int) (items : List Lexeme) : Prop where
  above : ∀ front, front <+: items → 0 ≤ depth + counter front
  ends : depth + counter items = 0

variable {item : Lexeme} {items rest stack leaving waiting ordered : List Lexeme}

private theorem counter_cons (item : Lexeme) (rest : List Lexeme) :
    counter (item :: rest) = item.turn + counter rest := by
  simp [counter]

private theorem matched_cons {depth : Int} :
    Matched depth (item :: rest) ↔ 0 ≤ depth ∧ Matched (depth + item.turn) rest := by
  constructor
  · rintro ⟨above, ends⟩
    rw [counter_cons] at ends
    refine ⟨by simpa [counter] using above [] List.nil_prefix, ?_, by omega⟩
    intro front within
    have bound := above (item :: front) ((List.prefix_cons_inj item).mpr within)
    rw [counter_cons] at bound
    omega
  · rintro ⟨start, above, ends⟩
    refine ⟨?_, by rw [counter_cons]; omega⟩
    intro front within
    rcases List.prefix_cons_iff.mp within with rfl | ⟨later, rfl, inside⟩
    · simpa [counter] using start
    · have bound := above later inside
      rw [counter_cons]
      omega

private theorem nested_iff_matched {depth : Nat} : Nested depth items ↔ Matched depth items := by
  induction items generalizing depth with
  | nil =>
    have none : counter [] = 0 := rfl
    constructor
    · rintro rfl
      exact ⟨fun front within => by simp [List.prefix_nil.mp within, none], by simp [none]⟩
    · rintro ⟨-, ends⟩
      show depth = 0
      omega
  | cons item rest ih =>
    rw [matched_cons]
    cases item with
    | opening =>
      simp only [Nested, ih, Lexeme.turn]
      exact ⟨fun matched => ⟨by omega, matched⟩, And.right⟩
    | closing =>
      cases depth with
      | zero =>
        constructor
        · rintro ⟨outer, count, -⟩
          cases count
        · rintro ⟨-, above, -⟩
          exact absurd (above [] List.nil_prefix) (by decide)
      | succ outer =>
        have nonnegative : 0 ≤ (outer : Int) + 1 := by omega
        simp [Nested, ih, Lexeme.turn, nonnegative]
    | _ => simp [Nested, ih, Lexeme.turn]

private theorem nested_iff_not_unmatched : Nested 0 items ↔ ¬ Unmatched items := by
  rw [nested_iff_matched]
  constructor
  · rintro ⟨above, ends⟩ (⟨front, within, negative⟩ | surplus)
    · have bound := above front within
      omega
    · omega
  · intro sound
    obtain ⟨above, ends⟩ := not_or.mp sound
    refine ⟨fun front within => ?_, by omega⟩
    by_contra negative
    exact above ⟨front, within, by omega⟩

/-- With `stack` waiting, `items` leave in the order `ordered`: all that is no parenthesis leaves
once, and what leaves at once keeps its order. -/
structure Rearranges (stack items ordered : List Lexeme) : Prop where
  perm : ordered.Perm ((stack ++ items).filter fun item => !item.isParenthesis)
  instant : ordered.filter Lexeme.isInstant = items.filter Lexeme.isInstant

structure Waits (item : Lexeme) : Prop where
  noClosing : item ≠ .closing
  notInstant : item.isInstant = false

theorem Rearranges.send (moves : Rearranges stack rest ordered) (instant : item.isInstant = true)
    (plain : item.isParenthesis = false) : Rearranges stack (item :: rest) (item :: ordered) where
  perm := by
    have middle := (List.perm_middle : (stack ++ item :: rest).Perm (item :: (stack ++ rest)))
    have kept := middle.filter fun item => !item.isParenthesis
    rw [List.filter_cons_of_pos (by simp [plain])] at kept
    exact (moves.perm.cons item).trans kept.symm
  instant := by
    rw [List.filter_cons_of_pos instant, List.filter_cons_of_pos instant, moves.instant]

theorem Rearranges.wait (moves : Rearranges (item :: stack) rest ordered)
    (waits : item.isInstant = false) : Rearranges stack (item :: rest) ordered where
  perm := by
    have middle := (List.perm_middle : (stack ++ item :: rest).Perm (item :: (stack ++ rest)))
    exact moves.perm.trans (middle.filter _).symm
  instant := by rw [List.filter_cons_of_neg (by simp [waits]), moves.instant]

/-- A part of the stack may leave in front, if nothing in it is dropped or leaves at once. -/
theorem Rearranges.leave (moves : Rearranges waiting items ordered)
    (whole : stack.filter (fun item => !item.isParenthesis) =
      (leaving ++ waiting).filter fun item => !item.isParenthesis)
    (plain : ∀ item ∈ leaving, item.isParenthesis = false)
    (waits : ∀ item ∈ leaving, item.isInstant = false) :
    Rearranges stack items (leaving ++ ordered) where
  perm := by
    have kept : leaving.filter (fun item => !item.isParenthesis) = leaving := by
      rw [List.filter_eq_self]
      intro item member
      simp [plain item member]
    have perm := moves.perm.append_left leaving
    rw [List.filter_append] at perm whole ⊢
    rwa [whole, kept, List.append_assoc]
  instant := by
    have none : leaving.filter Lexeme.isInstant = [] := by
      rw [List.filter_eq_nil_iff]
      intro item member
      simp [waits item member]
    rw [List.filter_append, none, List.nil_append, moves.instant]

theorem Rearranges.close (moves : Rearranges stack rest ordered) :
    Rearranges stack (.closing :: rest) ordered where
  perm := by
    have none : (!Lexeme.closing.isParenthesis) = false := rfl
    rw [List.filter_append, List.filter_cons_of_neg (by simp [none]), ← List.filter_append]
    exact moves.perm
  instant := moves.instant

theorem Waits.plain (waits : Waits item) (noOpening : isOpening Lexeme.role item = false) :
    item.isParenthesis = false := by
  cases item with
  | opening => cases noOpening
  | closing => exact absurd rfl waits.noClosing
  | _ => rfl

/-- What leaves for an operator to come is the top of the stack, down to what it leaves waiting. -/
theorem Rearranges.overtake {operator : BinaryOp} (waits : ∀ item ∈ stack, Waits item)
    (moves : Rearranges (.binary operator :: stack.dropWhile (actsBefore Lexeme.role operator.level))
      rest ordered) :
    Rearranges stack (.binary operator :: rest)
      (stack.takeWhile (actsBefore Lexeme.role operator.level) ++ ordered) := by
  have top : ∀ item ∈ stack.takeWhile (actsBefore Lexeme.role operator.level), Waits item :=
    fun item member => waits item (List.takeWhile_sublist _ |>.mem member)
  apply (moves.wait rfl).leave (by rw [List.takeWhile_append_dropWhile])
  · intro item member
    exact (top item member).plain (not_isOpening_of_actsBefore (List.mem_takeWhile_imp member))
  · exact fun item member => (top item member).notInstant

private theorem waits_of_close? (closes : close? Lexeme.role stack = some (leaving, waiting))
    (waits : ∀ item ∈ stack, Waits item) : ∀ item ∈ leaving ++ waiting, Waits item := by
  obtain ⟨inside, first, outer, rfl, -, whole, -⟩ := exists_opening_of_close? closes
  rw [whole]
  intro item member
  apply waits
  simp only [List.mem_append, List.mem_cons] at member ⊢
  tauto

/-- What leaves when parentheses close is what waits, without the opening one. -/
theorem Rearranges.unwrap (closes : close? Lexeme.role stack = some (leaving, waiting))
    (waits : ∀ item ∈ stack, Waits item) (moves : Rearranges waiting rest ordered) :
    Rearranges stack (.closing :: rest) (leaving ++ ordered) := by
  have kept := waits_of_close? closes waits
  obtain ⟨inside, first, outer, rfl, opens, whole, clear⟩ := exists_opening_of_close? closes
  obtain rfl : first = .opening := eq_opening (by simp [isOpening, opens])
  rw [List.forall_mem_append] at kept
  apply moves.close.leave
  · rw [whole]
    simp [Lexeme.isParenthesis]
  · exact fun item member => (kept.1 item member).plain (clear item member)
  · exact fun item member => (kept.1 item member).notInstant

/-- The induction is on what is still to come. Closings and what leaves at once never wait. -/
theorem rearranges_of_arrange (waits : ∀ item ∈ stack, Waits item)
    (arranged : arrange Lexeme.role stack items = .ok ordered) : Rearranges stack items ordered := by
  induction items generalizing stack ordered with
  | nil =>
    obtain ⟨rfl, clear⟩ := arrange_nil_eq_ok_iff.mp arranged
    have plain : ∀ item ∈ ordered, item.isParenthesis = false :=
      fun item member => (waits item member).plain (clear item member)
    have nothing : Rearranges [] [] [] := ⟨.refl _, rfl⟩
    simpa using nothing.leave (by simp) plain fun item member => (waits item member).notInstant
  | cons item rest ih =>
    cases item with
    | number | percent =>
      obtain ⟨later, left, rfl⟩ := map_ok arranged
      exact (ih waits left).send rfl rfl
    | negate | function | opening =>
      exact (ih (List.forall_mem_cons.mpr ⟨⟨by simp, rfl⟩, waits⟩) arranged).wait rfl
    | binary operator =>
      obtain ⟨later, left, rfl⟩ := map_ok arranged
      have joins : Waits (.binary operator) := ⟨by simp, rfl⟩
      have below : ∀ item ∈ stack.dropWhile (actsBefore Lexeme.role operator.level), Waits item :=
        fun item member => waits item (List.dropWhile_sublist _ |>.mem member)
      exact (ih (List.forall_mem_cons.mpr ⟨joins, below⟩) left).overtake waits
    | closing =>
      obtain ⟨leaving, waiting, later, closes, left, rfl⟩ := (arrange_closing_eq_ok_iff rfl).mp arranged
      have kept := (List.forall_mem_append.mp (waits_of_close? closes waits)).2
      exact (ih kept left).unwrap closes waits

private theorem arrange_failsOnly : FailsOnly (fun cause => cause.kind = .mismatchedParentheses)
    (arrange Lexeme.role stack items) := by
  induction items generalizing stack with
  | nil =>
    simp only [arrange]
    split
    · exact .error rfl
    · exact .ok stack
  | cons item rest ih =>
    cases item with
    | number | percent => exact ih.map
    | negate | function | opening => exact ih
    | binary operator => exact ih.map
    | closing =>
      simp only [arrange, Lexeme.role]
      cases close? Lexeme.role stack with
      | none => exact .error rfl
      | some found => exact ih.map

/-- A row can be put in order unless its parentheses do not match. What comes out is the row
without its parentheses, rearranged, with its numbers and percent signs as they followed each
other. -/
theorem reordered_unless_unmatched (items : List Lexeme) :
    ((∃ cause, reorder Lexeme.role items = .error cause ∧ cause.kind = .mismatchedParentheses) ↔
        Unmatched items) ∧
      (¬ Unmatched items → ∃ ordered, reorder Lexeme.role items = .ok ordered ∧
        ordered.Perm (items.filter fun item => !item.isParenthesis) ∧
        (∀ item ∈ ordered, item.isParenthesis = false) ∧
        ordered.filter Lexeme.isInstant = items.filter Lexeme.isInstant) := by
  cases reordered : reorder Lexeme.role items with
  | error cause =>
    have unmatched : Unmatched items := by
      by_contra matched
      obtain ⟨ordered, arranged⟩ := @arrange_of_nested items [] (nested_iff_not_unmatched.mpr matched)
      rw [← reorder, reordered] at arranged
      cases arranged
    refine ⟨iff_of_true ⟨cause, rfl, arrange_failsOnly cause reordered⟩ unmatched, ?_⟩
    exact fun matched => absurd unmatched matched
  | ok ordered =>
    have matched : ¬ Unmatched items := nested_iff_not_unmatched.mp (arrange_spec reordered).2
    have moves := rearranges_of_arrange (List.forall_mem_nil _) reordered
    have accepted : ¬ ∃ cause, (.ok ordered : Except Cause (List Lexeme)) = .error cause ∧
        cause.kind = .mismatchedParentheses := by
      rintro ⟨cause, failed, -⟩
      cases failed
    refine ⟨iff_of_false accepted matched, fun _ => ⟨ordered, rfl, moves.perm, ?_, moves.instant⟩⟩
    intro item member
    simpa using (List.mem_filter.mp (moves.perm.mem_iff.mp member)).2

theorem reordered_unless_unmatched_scattered :
    let row : List Lexeme := [.number 3.0, .opening, .binary .multiply, .number 2.0, .percent, .closing,
      .function .sin]
    Unmatched [.closing, .opening] ∧ ¬ Unmatched row ∧ ∃ ordered, reorder Lexeme.role row = .ok ordered ∧
      ordered.filter Lexeme.isInstant = [.number 3.0, .number 2.0, .percent] := by
  intro row
  have matched : ¬ Unmatched row := by
    apply nested_iff_not_unmatched.mp
    simp [row, Nested]
  obtain ⟨ordered, reordered, -, -, instant⟩ := (reordered_unless_unmatched row).2 matched
  refine ⟨?_, matched, ordered, reordered, instant⟩
  exact (reordered_unless_unmatched [.closing, .opening]).1.mp ⟨.unmatchedClosing, rfl, rfl⟩

end Reckon.Proofs.Rearrangement
