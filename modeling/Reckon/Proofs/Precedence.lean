import Reckon.Proofs.Readings

/-! The order of operations. What still waits after a row was read is what its right edge
may yet take: the operators that hold at least as tight as the layer that was read. -/

namespace Reckon.Polish

variable {α : Type} {role : α → Role} {item waiting : α} {stack rest kept : List α} {low high : Rat}

theorem actsBefore_mono (le : low ≤ high) (acts : actsBefore role high waiting = true) :
    actsBefore role low waiting = true := by
  simp only [actsBefore, Option.any_eq_true, decide_eq_true_eq] at acts ⊢
  obtain ⟨level, found, above⟩ := acts
  exact ⟨level, found, Rat.le_trans le above⟩

theorem not_isOpening_of_actsBefore (acts : actsBefore role low waiting = true) :
    isOpening role waiting = false := by
  unfold actsBefore Role.level? at acts
  unfold isOpening
  cases known : role waiting <;> simp_all

/-- A row that ends lets all that waits leave, unless parentheses are still open. -/
theorem arrange_nil_eq_ok_iff :
    arrange role stack [] = .ok kept ↔ kept = stack ∧ ∀ waiting ∈ stack, isOpening role waiting = false := by
  simp only [arrange]
  split
  case isTrue opened => simpa using fun _ => opened
  case isFalse closed =>
    have clear : ∀ waiting ∈ stack, isOpening role waiting = false := by simpa using closed
    rw [Except.ok.injEq, eq_comm]
    exact (and_iff_left clear).symm

theorem arrange_closing_eq_ok_iff (closing : role item = .closing) :
    arrange role stack (item :: rest) = .ok kept ↔ ∃ leaving waiting later,
      close? role stack = some (leaving, waiting) ∧ arrange role waiting rest = .ok later ∧
        leaving ++ later = kept := by
  simp only [arrange, closing]
  cases close? role stack with
  | none => simp
  | some found =>
    obtain ⟨leaving, waiting⟩ := found
    change (leaving ++ ·) <$> arrange role waiting rest = .ok kept ↔ _
    constructor
    · intro arranged
      cases left : arrange role waiting rest with
      | error cause =>
        rw [left] at arranged
        cases arranged
      | ok later =>
        rw [left] at arranged
        exact ⟨leaving, waiting, later, rfl, left, Except.ok.inj arranged⟩
    · rintro ⟨_, _, later, ⟨⟩, left, rfl⟩
      rw [left]
      rfl

/-- No operator of this level makes anything on top of the stack leave, and closing
parentheses take no function from it. -/
def Clear (role : α → Role) (level : Rat) (stack : List α) : Prop :=
  ∀ top ∈ stack.head?, actsBefore role level top = false ∧ role top ≠ .function

theorem Clear.mono (clear : Clear role low stack) (le : low ≤ high) : Clear role high stack := by
  intro top found
  obtain ⟨calm, noFunction⟩ := clear top found
  refine ⟨eq_false_of_ne_true fun acts => ?_, noFunction⟩
  simp [actsBefore_mono le acts] at calm

theorem Clear.nil : Clear role low [] := by
  intro top found
  simp at found

theorem Clear.cons (calm : actsBefore role low item = false) (noFunction : role item ≠ .function) :
    Clear role low (item :: stack) := by
  intro top found
  simp only [List.head?_cons, Option.mem_def, Option.some.injEq] at found
  subst found
  exact ⟨calm, noFunction⟩

private theorem takeWhile_clear (clear : Clear role low stack) :
    stack.takeWhile (actsBefore role low) = [] ∧ stack.dropWhile (actsBefore role low) = stack := by
  cases stack with
  | nil => exact ⟨rfl, rfl⟩
  | cons top below =>
    have calm := (clear top rfl).1
    exact ⟨List.takeWhile_cons_of_neg (by simp [calm]), List.dropWhile_cons_of_neg (by simp [calm])⟩

/-- An arriving operator takes all of `kept` along and nothing below it. -/
theorem arrange_binary (binary : role item = .binary low)
    (acts : ∀ waiting ∈ kept, actsBefore role low waiting = true) (clear : Clear role low stack) :
    arrange role (kept ++ stack) (item :: rest) = (kept ++ ·) <$> arrange role (item :: stack) rest := by
  obtain ⟨taken, left⟩ := takeWhile_clear clear
  simp only [arrange, binary, List.takeWhile_append_of_pos acts, List.dropWhile_append_of_pos acts,
    taken, left, List.append_nil]

private theorem close?_of_clear {opening : α} (opens : role opening = .opening)
    (inside : ∀ waiting ∈ kept, isOpening role waiting = false) (clear : Clear role low stack) :
    close? role (kept ++ opening :: stack) = some (kept, stack) := by
  have inner : ∀ waiting ∈ kept, (!isOpening role waiting) = true := by simpa using inside
  simp only [close?, List.takeWhile_append_of_pos inner, List.dropWhile_append_of_pos inner]
  cases stack with
  | nil => simp [isOpening, opens]
  | cons below rest => simp [isOpening, opens, (clear below rfl).2]

private theorem close?_of_function {opening f : α} (opens : role opening = .opening)
    (called : role f = .function) (inside : ∀ waiting ∈ kept, isOpening role waiting = false) :
    close? role (kept ++ opening :: f :: stack) = some (kept ++ [f], stack) := by
  have inner : ∀ waiting ∈ kept, (!isOpening role waiting) = true := by simpa using inside
  simp only [close?, List.takeWhile_append_of_pos inner, List.dropWhile_append_of_pos inner]
  simp [isOpening, opens, called]

end Reckon.Polish

namespace Reckon.Expr

/-- One item in postorder, taken by a machine whose stack holds trees. -/
def grow : List Expr → Lexeme → Option (List Expr)
  | stack, .number value => some (literal value :: stack)
  | right :: left :: stack, .binary operator => some (binary operator left right :: stack)
  | operand :: stack, .negate => some (negate operand :: stack)
  | operand :: stack, .percent => some (percent operand :: stack)
  | argument :: stack, .function f => some (function f argument :: stack)
  | _, _ => none

private theorem foldlM_postorder (tree : Expr) (stack : List Expr) (rest : List Lexeme) :
    (tree.postorder ++ rest).foldlM grow stack = rest.foldlM grow (tree :: stack) := by
  induction tree generalizing stack rest with
  | literal value => rfl
  | binary operator left right ihLeft ihRight =>
    simp only [postorder, List.append_assoc, ihLeft, ihRight]
    rfl
  | negate operand ih | percent operand ih | function f operand ih =>
    simp only [postorder, List.append_assoc, ih]
    rfl

/-- A tree can be told from its postorder. -/
theorem postorder_injective : Function.Injective postorder := by
  intro first second same
  have grown (tree : Expr) : tree.postorder.foldlM grow [] = some [tree] := by
    simpa using foldlM_postorder tree [] []
  have equal : some [first] = some [second] := by rw [← grown, same, grown]
  simpa using equal

end Reckon.Expr

namespace Reckon.Grammar.Layer

/-- The loosest operator that may still wait once a row of this layer was read. -/
def least : Layer → Rat
  | atom | suffixed => 5
  | power => 3
  | signed => signLevel
  | product => 2
  | sum => 1

def brings : Layer → Rat
  | atom | suffixed => 5
  | power | signed => 3
  | product => 2
  | sum => 1

end Reckon.Grammar.Layer

namespace Reckon.Proofs.Precedence
open Grammar Polish

/-- Reading `items` lets `sent` leave and keeps `kept` waiting, on top of whatever waited
before, if that is out of reach of the operators that `items` bring. -/
structure Leaves (least brings : Rat) (items sent kept : List Lexeme) : Prop where
  acts : ∀ waiting ∈ kept, actsBefore Lexeme.role least waiting = true
  arranged : ∀ stack rest, Clear Lexeme.role brings stack →
    arrange Lexeme.role stack (items ++ rest) =
      (sent ++ ·) <$> arrange Lexeme.role (kept ++ stack) rest

variable {least brings : Rat} {items others sent kept sent' kept' : List Lexeme}

theorem Leaves.noOpening (leaves : Leaves least brings items sent kept) :
    ∀ waiting ∈ kept, isOpening Lexeme.role waiting = false :=
  fun waiting member => not_isOpening_of_actsBefore (leaves.acts waiting member)

theorem Leaves.loosen {tight bound : Rat} (leaves : Leaves tight bound items sent kept)
    (looser : least ≤ tight) (wider : brings ≤ bound) : Leaves least brings items sent kept where
  acts waiting member := actsBefore_mono looser (leaves.acts waiting member)
  arranged stack rest clear := leaves.arranged stack rest (clear.mono wider)

theorem Leaves.number (value : Float) : Leaves 5 5 [.number value] [.number value] [] where
  acts _ member := by simp at member
  arranged _ _ _ := rfl

private theorem not_actsBefore_five (waiting : Lexeme) :
    actsBefore Lexeme.role 5 waiting = false := by
  cases waiting with
  | binary operator => cases operator <;> decide
  | negate => decide
  | _ => rfl

/-- Nothing that waits binds as tight as the percent sign, so nothing waits behind an atom. -/
theorem Leaves.kept_eq_nil (leaves : Leaves 5 brings items sent kept) : kept = [] := by
  cases kept with
  | nil => rfl
  | cons waiting kept =>
    have acts := leaves.acts waiting (by simp)
    rw [not_actsBefore_five] at acts
    cases acts

theorem Leaves.group (leaves : Leaves least 1 items sent kept) :
    Leaves 5 5 (.opening :: items ++ [.closing]) (sent ++ kept) [] where
  acts _ member := by simp at member
  arranged stack rest clear := by
    have under : Clear Lexeme.role 1 (Lexeme.opening :: stack) :=
      .cons rfl (by simp [Lexeme.role])
    have closed := close?_of_clear (show Lexeme.role .opening = .opening from rfl) leaves.noOpening clear
    calc arrange Lexeme.role stack (.opening :: items ++ [.closing] ++ rest)
      _ = arrange Lexeme.role (.opening :: stack) (items ++ .closing :: rest) := by
        simp [arrange, Lexeme.role]
      _ = (sent ++ ·) <$> arrange Lexeme.role (kept ++ .opening :: stack) (.closing :: rest) :=
        leaves.arranged _ _ under
      _ = (sent ++ kept ++ ·) <$> arrange Lexeme.role ([] ++ stack) rest := by
        rw [arrange]
        simp [Lexeme.role, closed]

theorem Leaves.call (f : Function) (leaves : Leaves least 1 items sent kept) :
    Leaves 5 5 (.function f :: .opening :: items ++ [.closing]) (sent ++ kept ++ [.function f]) []
    where
  acts _ member := by simp at member
  arranged stack rest _ := by
    have under : Clear Lexeme.role 1 (.opening :: .function f :: stack) :=
      .cons rfl (by simp [Lexeme.role])
    have closed : close? Lexeme.role (kept ++ .opening :: .function f :: stack) =
        some (kept ++ [.function f], stack) :=
      close?_of_function rfl rfl leaves.noOpening
    calc arrange Lexeme.role stack (.function f :: .opening :: items ++ [.closing] ++ rest)
      _ = arrange Lexeme.role (.opening :: .function f :: stack) (items ++ .closing :: rest) := by
        simp [arrange, Lexeme.role]
      _ = (sent ++ ·) <$>
          arrange Lexeme.role (kept ++ .opening :: .function f :: stack) (.closing :: rest) :=
        leaves.arranged _ _ under
      _ = (sent ++ kept ++ [.function f] ++ ·) <$> arrange Lexeme.role ([] ++ stack) rest := by
        rw [arrange]
        simp [Lexeme.role, closed]

theorem Leaves.percent (leaves : Leaves 5 5 items sent []) :
    Leaves 5 5 (items ++ [.percent]) (sent ++ [.percent]) [] where
  acts _ member := by simp at member
  arranged stack rest clear := by
    rw [List.append_assoc, leaves.arranged _ _ clear]
    simp [arrange, Lexeme.role]

theorem Leaves.negate (leaves : Leaves signLevel 3 items sent kept) :
    Leaves signLevel 5 (.negate :: items) sent (kept ++ [.negate]) where
  acts waiting member := by
    rcases List.mem_append.mp member with inner | sign
    · exact leaves.acts waiting inner
    · cases List.mem_singleton.mp sign
      decide
  arranged stack rest _ := by
    have under : Clear Lexeme.role 3 (.negate :: stack) :=
      .cons (by decide) (by simp [Lexeme.role])
    simp [arrange, Lexeme.role, leaves.arranged _ _ under]

/-- An operator takes the row on its left and waits for the one on its right. -/
theorem Leaves.join {onLeft onRight bound bound' : Rat} (operator : BinaryOp)
    (first : Leaves onLeft bound items sent kept) (second : Leaves onRight bound' others sent' kept')
    (takes : operator.level ≤ onLeft) (holds : operator.level < bound') (looser : least ≤ onRight)
    (own : least ≤ operator.level) (wider : brings ≤ bound) (level : brings ≤ operator.level) :
    Leaves least brings (items ++ .binary operator :: others) (sent ++ kept ++ sent')
      (kept' ++ [.binary operator]) where
  acts waiting member := by
    rcases List.mem_append.mp member with inner | joined
    · exact actsBefore_mono looser (second.acts waiting inner)
    · cases List.mem_singleton.mp joined
      simpa [actsBefore, Lexeme.role, Role.level?] using own
  arranged stack rest clear := by
    have under : Clear Lexeme.role bound' (.binary operator :: stack) :=
      .cons (by simpa [actsBefore, Lexeme.role, Role.level?] using Rat.not_le.mpr holds)
        (by simp [Lexeme.role])
    have taken : ∀ waiting ∈ kept, actsBefore Lexeme.role operator.level waiting = true :=
      fun waiting member => actsBefore_mono takes (first.acts waiting member)
    calc arrange Lexeme.role stack (items ++ .binary operator :: others ++ rest)
      _ = (sent ++ ·) <$>
          arrange Lexeme.role (kept ++ stack) (.binary operator :: (others ++ rest)) := by
        simp [first.arranged _ _ (clear.mono wider)]
      _ = (sent ++ kept ++ ·) <$> arrange Lexeme.role (.binary operator :: stack) (others ++ rest) := by
        rw [arrange_binary (show Lexeme.role (.binary operator) = .binary operator.level from rfl) taken
          (clear.mono level)]
        simp
      _ = (sent ++ kept ++ sent' ++ ·) <$>
          arrange Lexeme.role (kept' ++ [.binary operator] ++ stack) rest := by
        simp [second.arranged _ _ under]

variable {layer : Layer} {tree left right : Expr}

/-- A row that leaves in the postorder of a tree, its last operators late. -/
def Orders (least brings : Rat) (items : List Lexeme) (tree : Expr) : Prop :=
  ∃ sent kept, sent ++ kept = tree.postorder ∧ Leaves least brings items sent kept

namespace Orders

theorem number (value : Float) : Orders 5 5 [.number value] (.literal value) :=
  ⟨[.number value], [], rfl, .number value⟩

theorem loosen {tight bound : Rat} (orders : Orders tight bound items tree)
    (looser : least ≤ tight) (wider : brings ≤ bound) : Orders least brings items tree := by
  obtain ⟨sent, kept, whole, leaves⟩ := orders
  exact ⟨sent, kept, whole, leaves.loosen looser wider⟩

theorem group (orders : Orders least 1 items tree) :
    Orders 5 5 (.opening :: items ++ [.closing]) tree := by
  obtain ⟨sent, kept, whole, leaves⟩ := orders
  exact ⟨sent ++ kept, [], by simpa using whole, leaves.group⟩

theorem call (f : Function) (orders : Orders least 1 items tree) :
    Orders 5 5 (.function f :: .opening :: items ++ [.closing]) (.function f tree) := by
  obtain ⟨sent, kept, whole, leaves⟩ := orders
  exact ⟨_, [], by simp [Expr.postorder, ← whole], leaves.call f⟩

theorem percent (orders : Orders 5 5 items tree) :
    Orders 5 5 (items ++ [.percent]) (.percent tree) := by
  obtain ⟨sent, kept, whole, leaves⟩ := orders
  cases leaves.kept_eq_nil
  exact ⟨_, [], by simp [Expr.postorder, ← whole], leaves.percent⟩

theorem negate (orders : Orders signLevel 3 items tree) :
    Orders signLevel 5 (.negate :: items) (.negate tree) := by
  obtain ⟨sent, kept, whole, leaves⟩ := orders
  exact ⟨sent, kept ++ [.negate], by simp [Expr.postorder, ← whole], leaves.negate⟩

theorem join {onLeft onRight bound bound' : Rat} (operator : BinaryOp)
    (first : Orders onLeft bound items left) (second : Orders onRight bound' others right)
    (takes : operator.level ≤ onLeft) (holds : operator.level < bound') (looser : least ≤ onRight)
    (own : least ≤ operator.level) (wider : brings ≤ bound) (level : brings ≤ operator.level) :
    Orders least brings (items ++ .binary operator :: others) (.binary operator left right) := by
  obtain ⟨sent, kept, whole, leaves⟩ := first
  obtain ⟨sent', kept', whole', leaves'⟩ := second
  exact ⟨_, _, by simp [Expr.postorder, ← whole, ← whole'],
    leaves.join operator leaves' takes holds looser own wider level⟩

end Orders

/-- What a row that is read lets wait, and what it brings along, is bounded by its layer. -/
theorem orders_of_reads (reading : Reads layer items tree) :
    Orders layer.least layer.brings items tree := by
  induction reading with
  | number value => exact .number value
  | group _ ih => exact ih.group
  | call f _ ih => exact ih.call f
  | percent _ ih => exact ih.percent
  | bare _ ih | base _ ih | unsigned _ ih | factor _ ih | term _ ih =>
    exact ih.loosen (by decide) (by decide)
  | negate _ ih => exact ih.negate.loosen (by decide) (by decide)
  | power _ _ first second =>
    exact first.join .power second (by decide) (by decide) (by decide) (by decide) (by decide)
      (by decide)
  | powerNegate _ _ first second =>
    exact first.join .power second.negate (by decide) (by decide) (by decide) (by decide) (by decide)
      (by decide)
  | product operator level _ _ first second | sum operator level _ _ first second =>
    refine first.join operator second ?_ ?_ (by decide) ?_ (by decide) ?_
    all_goals
      rw [level]
      decide

theorem reorder_of_reads (reading : Reads .sum items tree) :
    reorder Lexeme.role items = .ok tree.postorder := by
  obtain ⟨sent, kept, whole, leaves⟩ := orders_of_reads reading
  have finished := arrange_nil_eq_ok_iff.mpr ⟨rfl, leaves.noOpening⟩
  have arranged := leaves.arranged [] [] .nil
  simp only [List.append_nil, finished] at arranged
  rw [reorder, arranged, ← whole]
  rfl

/-- The value of a row that is read is the value of its tree. -/
theorem run_of_reads (mode : AngleMode) (reading : Reads .sum items tree) :
    (do
      let ordered ← liftCause (reorder Lexeme.role items)
      Machine.run (Lexeme.action mode) ordered) = liftCause (tree.value mode) := by
  rw [reorder_of_reads reading, ← Machine.run_postorder]
  rfl

/-- Every sentence is read in exactly one way. It leaves in the postorder of its tree, and
the machine then gives the value of the tree, or fails for the cause for which the first
operation that fails does. -/
theorem sentence_order (sentence : IsSentence items) :
    ∃ tree, (∀ other, Reads .sum items other ↔ other = tree) ∧
      reorder Lexeme.role items = .ok tree.postorder ∧
      ∀ mode, Machine.run (Lexeme.action mode) tree.postorder = liftCause (tree.value mode) := by
  obtain ⟨tree, reading⟩ := Readings.exists_reading sentence
  refine ⟨tree, fun other => ⟨fun reads => ?_, fun same => same ▸ reading⟩,
    reorder_of_reads reading, fun mode => Machine.run_postorder mode tree⟩
  have orders : (.ok other.postorder : Except Cause (List Lexeme)) = .ok tree.postorder :=
    (reorder_of_reads reads).symm.trans (reorder_of_reads reading)
  exact Expr.postorder_injective (Except.ok.inj orders)

theorem sentence_order_sign :
    let row := [.number 2.0, .binary .power, .negate, .number 3.0, .binary .power, .number 4.0,
      .binary .multiply, .number 5.0, .percent]
    IsSentence row ∧ reorder Lexeme.role row =
      .ok [.number 2.0, .number 3.0, .number 4.0, .binary .power, .negate, .binary .power,
        .number 5.0, .percent, .binary .multiply] := by
  intro row
  have operand (x : Float) : Derives .operand [.number x] := .unsigned (.bare (.number x))
  have sentence : IsSentence row :=
    .join .multiply (.join .power (.join .power (.single (operand 2.0)) (.negate (operand 3.0)))
      (operand 4.0)) (.unsigned (.percent (.bare (.number 5.0))))
  obtain ⟨tree, unique, ordered, -⟩ := sentence_order sentence
  have reading : Reads .sum row (.binary .multiply (.binary .power (.literal 2.0)
      (.negate (.binary .power (.literal 3.0) (.literal 4.0)))) (.percent (.literal 5.0))) :=
    .term (.product .multiply rfl
      (.factor (.powerNegate (.base (.bare (.number 2.0)))
        (.unsigned (.power (.base (.bare (.number 3.0))) (.bare (.number 4.0))))))
      (.unsigned (.base (.percent (.bare (.number 5.0))))))
  rw [← (unique _).mp reading] at ordered
  exact ⟨sentence, ordered⟩

end Reckon.Proofs.Precedence
